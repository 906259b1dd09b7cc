import Yuance.Files.DeletionJobs

/-!
# Yuance.Files.Leases

Workers that delete objects beside each other. A lease is told by its token; each claim draws a new
one, so a worker whose job was claimed again finds no row that its statements apply to.

* `JobOk`: a job belongs to a deleted file and is not due before the last upload URL of the file is
  long invalid; only a job in the hands of a worker has a lease.
* `Held`: what a worker knows of its job from the claim on.
* `LeasedSafely`: what each statement of a worker may do.
-/

namespace Yuance
namespace Files
namespace Deletion

open Lib Platform

/-- 4 hours and 5 minutes. -/
def urlGrace : Int := (4 * 60 + 5) * 60

/-- The file of the job, whose upload URLs were invalid for long at `time`. -/
def Expired (objects : List ObjectRow) (fileObjectId : Int) (objectKey : String) (time : Int) : Prop :=
  ∃ o ∈ objects, o.id = fileObjectId ∧ o.objectKey = objectKey ∧ o.status = .deleted ∧
    ∀ e, o.uploadUrlExpiresAt = some e → e + urlGrace ≤ time

/-- The token of the job is that of its last claim. -/
def Latest (claims : List Claim) (j : JobRow) : Prop :=
  ∃ (k : Nat) (c : Claim), claims[k]? = some c ∧ c.jobId = j.id ∧ j.leaseToken = some c.leaseToken ∧
    ∀ (k' : Nat) (c' : Claim), k < k' → claims[k']? = some c' → c'.jobId ≠ j.id

structure JobOk (db : Db) (j : JobRow) : Prop where
  pending : j.status = .pending →
    Expired db.tables.objects j.fileObjectId j.objectKey j.nextAttemptAt
  processing : j.status = .processing →
    Expired db.tables.objects j.fileObjectId j.objectKey db.clock
  leased : j.status = .processing → j.leaseUntil.isSome = true ∧ Latest db.claims j
  free : j.status ≠ .processing → j.leaseUntil = none

structure Inv (draw : Nat → String) (db : Db) : Prop where
  objectIds : (db.tables.objects.map (·.id)).Nodup
  jobIds : (db.tables.jobs.map (·.id)).Nodup
  bound : ∀ j ∈ db.tables.jobs, j.id < db.tables.nextJob
  jobs : ∀ j ∈ db.tables.jobs, JobOk db j
  tokens : ∀ (k : Nat) c, db.claims[k]? = some c → c.leaseToken = draw k

/-- What every statement of every call respects. -/
structure Later (db db' : Db) : Prop where
  clock : db.clock ≤ db'.clock
  claims : db.claims <+: db'.claims
  deletes : ∀ d ∈ db.deletes, d ∈ db'.deletes
  jobs : ∀ j ∈ db.tables.jobs, ∃ j' ∈ db'.tables.jobs, j'.id = j.id ∧
    j'.fileObjectId = j.fileObjectId ∧ (j.status = .completed → j' = j)
  objects : ∀ o ∈ db.tables.objects, o.status = .deleted → o ∈ db'.tables.objects

theorem Later.refl (db : Db) : Later db db where
  clock := Int.le_refl _
  claims := List.prefix_rfl
  deletes := fun _ h => h
  jobs := fun j hj => ⟨j, hj, rfl, rfl, fun _ => rfl⟩
  objects := fun _ h _ => h

theorem Later.trans {a b c : Db} (hab : Later a b) (hbc : Later b c) : Later a c where
  clock := Int.le_trans hab.clock hbc.clock
  claims := hab.claims.trans hbc.claims
  deletes := fun d hd => hbc.deletes d (hab.deletes d hd)
  jobs := by
    intro j hj
    obtain ⟨j₁, hj₁, hid₁, hfile₁, hdone₁⟩ := hab.jobs j hj
    obtain ⟨j₂, hj₂, hid₂, hfile₂, hdone₂⟩ := hbc.jobs j₁ hj₁
    refine ⟨j₂, hj₂, hid₂.trans hid₁, hfile₂.trans hfile₁, ?_⟩
    intro hdone
    obtain rfl := hdone₁ hdone
    exact hdone₂ hdone
  objects := fun o ho hdeleted => hbc.objects o (hab.objects o ho hdeleted) hdeleted

/-- A step that respects both. -/
structure Kept (draw : Nat → String) (db db' : Db) : Prop where
  inv : Inv draw db'
  later : Later db db'

theorem Inv.kept {draw : Nat → String} {db : Db} (h : Inv draw db) : Kept draw db db :=
  ⟨h, Later.refl db⟩

/-- What a worker knows of its job. -/
structure Held (db : Db) (job : FileObjectDeletionJob) : Prop where
  claimed : ⟨job.id, job.leaseToken⟩ ∈ db.claims
  expired : ∃ j ∈ db.tables.jobs, j.id = job.id ∧
    Expired db.tables.objects j.fileObjectId job.objectKey db.clock

/-- The storage has deleted the object for the worker. -/
def Deleted (db : Db) (job : FileObjectDeletionJob) : Prop :=
  ∃ d ∈ db.deletes, d.jobId = job.id ∧ d.leaseToken = job.leaseToken ∧ d.succeeded = true

/-- What a worker makes sure of before each statement. -/
def Grants (db : Db) : Statement → Prop
  | .deleteObject job => Held db job
  | .complete job => Deleted db job
  | _ => True

theorem Expired.mono {objects objects' : List ObjectRow} {fileObjectId : Int} {objectKey : String}
    {time time' : Int} (h : Expired objects fileObjectId objectKey time)
    (hobjects : ∀ o ∈ objects, o.status = .deleted → o ∈ objects') (htime : time ≤ time') :
    Expired objects' fileObjectId objectKey time' := by
  obtain ⟨o, ho, hid, hkey, hdeleted, hexpires⟩ := h
  refine ⟨o, hobjects o ho hdeleted, hid, hkey, hdeleted, ?_⟩
  intro e he
  exact Int.le_trans (hexpires e he) htime

theorem Held.later {db db' : Db} {job : FileObjectDeletionJob} (h : Held db job)
    (hl : Later db db') : Held db' job := by
  obtain ⟨hclaimed, j, hj, hid, hexpired⟩ := h
  obtain ⟨j', hj', hid', hfile', -⟩ := hl.jobs j hj
  refine ⟨hl.claims.subset hclaimed, j', hj', hid'.trans hid, ?_⟩
  rw [hfile']
  exact hexpired.mono hl.objects hl.clock

theorem Deleted.later {db db' : Db} {job : FileObjectDeletionJob} (h : Deleted db job)
    (hl : Later db db') : Deleted db' job := by
  obtain ⟨d, hd, hrest⟩ := h
  exact ⟨d, hl.deletes d hd, hrest⟩

/-! ## Every statement keeps the jobs in order -/

section Steps

variable {draw : Nat → String} {db : Db}

theorem after_keeps (h : Inv draw db) (elapsed : Nat) :
    Kept draw db (db.after elapsed) := by
  have hclock : db.clock ≤ db.clock + elapsed := by omega
  refine ⟨⟨h.objectIds, h.jobIds, h.bound, ?_, h.tokens⟩, hclock, List.prefix_rfl, fun _ h => h,
    fun j hj => ⟨j, hj, rfl, rfl, fun _ => rfl⟩, fun _ h _ => h⟩
  intro j hj
  obtain ⟨h1, h2, h3, h4⟩ := h.jobs j hj
  exact ⟨h1, fun hs => (h2 hs).mono (fun _ ho _ => ho) hclock, h3, h4⟩

/-- The same jobs behind a change of the files that leaves the deleted ones alone. -/
theorem objects_keep (h : Inv draw db) {f : ObjectRow → ObjectRow} {p : ObjectRow → Bool}
    (hid : ∀ o, (f o).id = o.id) (hdeleted : ∀ o, o.status = .deleted → (if p o then f o else o) = o) :
    Kept draw db
      { db with tables := { db.tables with objects := updateWhere p f db.tables.objects } } := by
  have hobjects : ∀ o ∈ db.tables.objects, o.status = .deleted →
      o ∈ updateWhere p f db.tables.objects := by
    intro o ho hstatus
    exact mem_updateWhere.mpr ⟨o, ho, (hdeleted o hstatus).symm⟩
  refine ⟨⟨?_, h.jobIds, h.bound, ?_, h.tokens⟩, Int.le_refl _, List.prefix_rfl, fun _ h => h,
    fun j hj => ⟨j, hj, rfl, rfl, fun _ => rfl⟩, hobjects⟩
  · change ((updateWhere p f db.tables.objects).map (·.id)).Nodup
    rw [map_updateWhere (fun o : ObjectRow => o.id) hid]
    exact h.objectIds
  · intro j hj
    obtain ⟨h1, h2, h3, h4⟩ := h.jobs j hj
    exact ⟨fun hs => (h1 hs).mono hobjects (Int.le_refl _),
      fun hs => (h2 hs).mono hobjects (Int.le_refl _), h3, h4⟩

/-- A change of jobs that are not completed. -/
theorem jobs_keep (h : Inv draw db) {f : JobRow → JobRow} {p : JobRow → Bool} {claims : List Claim}
    (hids : ∀ j, (f j).id = j.id ∧ (f j).fileObjectId = j.fileObjectId)
    (hopen : ∀ j ∈ db.tables.jobs, p j = true → j.status ≠ .completed)
    (hclaims : db.claims <+: claims) (htokens : ∀ (k : Nat) c, claims[k]? = some c → c.leaseToken = draw k)
    (hok : ∀ j ∈ db.tables.jobs, JobOk { db with claims := claims } (if p j then f j else j)) :
    Kept draw db
      { db with
        tables := { db.tables with jobs := updateWhere p f db.tables.jobs }
        claims := claims } := by
  refine ⟨⟨h.objectIds, ?_, ?_, ?_, htokens⟩, Int.le_refl _, hclaims, fun _ h => h, ?_,
    fun _ ho _ => ho⟩
  · change ((updateWhere p f db.tables.jobs).map (·.id)).Nodup
    rw [map_updateWhere (fun j : JobRow => j.id) fun j => (hids j).1]
    exact h.jobIds
  · intro j hj
    obtain ⟨q, hq, rfl⟩ := mem_updateWhere.mp hj
    have hbound := h.bound q hq
    split
    · rw [(hids q).1]
      exact hbound
    · exact hbound
  · intro j hj
    obtain ⟨q, hq, rfl⟩ := mem_updateWhere.mp hj
    obtain ⟨h1, h2, h3, h4⟩ := hok q hq
    exact ⟨h1, h2, h3, h4⟩
  · intro j hj
    refine ⟨_, mem_updateWhere.mpr ⟨j, hj, rfl⟩, ?_⟩
    split
    · rename_i hp
      exact ⟨(hids j).1, (hids j).2, fun hdone => absurd hdone (hopen j hj hp)⟩
    · exact ⟨rfl, rfl, fun _ => rfl⟩

theorem enqueue_keeps (h : Inv draw db) (fileObjectId : Int) :
    Kept draw db { db with tables := (db.tables.enqueueDeletedFileObject db.clock fileObjectId).1 } := by
  have hset := @objects_keep draw db h ({ · with status := .deleted }) (·.id == fileObjectId)
    (fun _ => rfl) (by
      intro o hdeleted
      split
      · rw [← hdeleted]
      · rfl)
  unfold Tables.enqueueDeletedFileObject
  split
  · exact h.kept
  rename_i object hobject
  split
  · exact h.kept
  split
  · exact h.kept
  rename_i config _
  split
  · exact h.kept
  split
  · exact hset
  -- a new job, for a file that had none
  obtain ⟨hinv, hlater⟩ := hset
  have hid : object.id = fileObjectId := by
    have := List.find?_some hobject
    exact beq_iff_eq.mp this
  have hnew : JobOk { db with tables := { db.tables with
      objects := updateWhere (·.id == fileObjectId) ({ · with status := .deleted })
        db.tables.objects } } (db.tables.newJob db.clock object config) := by
    refine ⟨?_, fun hs => (by cases hs), fun hs => (by cases hs), fun _ => rfl⟩
    intro _
    refine ⟨{ object with status := .deleted }, ?_, rfl, rfl, rfl, ?_⟩
    · refine mem_updateWhere.mpr ⟨object, List.mem_of_find?_eq_some hobject, ?_⟩
      rw [if_pos (beq_iff_eq.mpr hid)]
    · intro e he
      change e + urlGrace ≤ Tables.safeAfter db.clock object.uploadUrlExpiresAt
      rw [show object.uploadUrlExpiresAt = some e from he]
      exact Int.le_max_right _ _
  refine ⟨⟨hinv.objectIds, ?_, ?_, ?_, h.tokens⟩, hlater.clock, hlater.claims, hlater.deletes, ?_,
    hlater.objects⟩
  · change ((db.tables.jobs ++ [db.tables.newJob db.clock object config]).map (·.id)).Nodup
    rw [List.map_append]
    apply List.Nodup.append h.jobIds (List.nodup_singleton _)
    intro id hold hnewId
    obtain ⟨j, hj, rfl⟩ := List.mem_map.mp hold
    have hlt := h.bound j hj
    have heq : j.id = db.tables.nextJob := List.mem_singleton.mp hnewId
    omega
  · intro j hj
    change j.id < db.tables.nextJob + 1
    rcases List.mem_append.mp hj with hmem | hmem
    · have := h.bound j hmem
      omega
    · rw [List.mem_singleton.mp hmem]
      exact Int.lt_succ _
  · intro j hj
    rcases List.mem_append.mp hj with hmem | hmem
    · obtain ⟨h1, h2, h3, h4⟩ := hinv.jobs j hmem
      exact ⟨h1, h2, h3, h4⟩
    · rw [List.mem_singleton.mp hmem]
      obtain ⟨h1, h2, h3, h4⟩ := hnew
      exact ⟨h1, h2, h3, h4⟩
  · intro j hj
    exact ⟨j, List.mem_append_left _ hj, rfl, rfl, fun _ => rfl⟩

theorem extend_keeps (h : Inv draw db) (fileObjectId expiresAt : Int) :
    Kept draw db { db with tables := (db.tables.extendUploadUrlExpiration fileObjectId expiresAt).1 } := by
  unfold Tables.extendUploadUrlExpiration
  split
  · exact h.kept
  apply objects_keep h
  · exact fun _ => rfl
  · intro o hdeleted
    rw [if_neg]
    rw [hdeleted, Bool.and_eq_true]
    exact fun hpending => absurd hpending.2 (by decide)

theorem isLeased_iff {job : FileObjectDeletionJob} {j : JobRow} :
    Tables.isLeased job j = true ↔
      j.id = job.id ∧ j.status = .processing ∧ j.leaseToken = some job.leaseToken := by
  unfold Tables.isLeased
  rw [Bool.and_eq_true, Bool.and_eq_true, beq_iff_eq, beq_iff_eq, beq_iff_eq, and_assoc]

theorem processing_ne_completed {j : JobRow} (h : j.status = .processing) : j.status ≠ .completed := by
  rw [h]
  decide

theorem complete_keeps (h : Inv draw db) (job : FileObjectDeletionJob) :
    Kept draw db { db with tables := (db.tables.complete db.clock job).1 } := by
  refine @jobs_keep draw db h (Tables.completed db.clock) (Tables.isLeased job) db.claims
    (fun _ => ⟨rfl, rfl⟩) ?_ List.prefix_rfl h.tokens ?_
  · intro j _ hleased
    exact processing_ne_completed (isLeased_iff.mp hleased).2.1
  · intro j hj
    split
    · exact ⟨fun hs => (by cases hs), fun hs => (by cases hs), fun hs => (by cases hs), fun _ => rfl⟩
    · exact h.jobs j hj

theorem retryMinutes_nonneg (attemptCount : Nat) : 0 ≤ Tables.retryMinutes attemptCount := by
  unfold Tables.retryMinutes
  apply le_min
  · positivity
  · decide

theorem retry_keeps (h : Inv draw db) (job : FileObjectDeletionJob) (error : String) :
    Kept draw db { db with tables := (db.tables.retry db.clock job error).1 } := by
  refine @jobs_keep draw db h (Tables.retried db.clock job error) (Tables.isLeased job) db.claims
    (fun _ => ⟨rfl, rfl⟩) ?_ List.prefix_rfl h.tokens ?_
  · intro j _ hleased
    exact processing_ne_completed (isLeased_iff.mp hleased).2.1
  · intro j hj
    split
    · rename_i hleased
      have hprocessing := (isLeased_iff.mp hleased).2.1
      refine ⟨fun _ => ?_, fun hs => (by cases hs), fun hs => (by cases hs), fun _ => rfl⟩
      -- the wait begins now, and the lease was only given when the URLs were invalid
      refine ((h.jobs j hj).processing hprocessing).mono (fun _ ho _ => ho) ?_
      have hwait := retryMinutes_nonneg job.attemptCount
      change db.clock ≤ db.clock + Tables.retryMinutes job.attemptCount * 60
      omega
    · exact h.jobs j hj

theorem nextDue_eq_some {now : Int} {j : JobRow} (h : db.tables.nextDue now = some j) :
    j ∈ db.tables.jobs ∧ Tables.isDue now j = true := by
  have hmem := mem_orderBy.mp (List.mem_of_head? h)
  exact List.mem_filter.mp hmem

theorem isDue_iff {now : Int} {j : JobRow} :
    Tables.isDue now j = true ↔ (j.status = .pending ∧ j.nextAttemptAt ≤ now) ∨
      (j.status = .processing ∧ ∃ l, j.leaseUntil = some l ∧ l ≤ now) := by
  unfold Tables.isDue
  rw [Bool.or_eq_true, Bool.and_eq_true, Bool.and_eq_true, beq_iff_eq, beq_iff_eq,
    decide_eq_true_eq, Option.any_eq_true]
  constructor
  · rintro (h | ⟨hs, l, hl, hle⟩)
    · exact .inl h
    · exact .inr ⟨hs, l, hl, of_decide_eq_true hle⟩
  · rintro (h | ⟨hs, l, hl, hle⟩)
    · exact .inl h
    · exact .inr ⟨hs, l, hl, decide_eq_true hle⟩

/-- The tables behind a claim that takes the job. -/
def claimTaken (draw : Nat → String) (db : Db) (j : JobRow) : Db :=
  { db with
    tables := { db.tables with
      jobs := updateWhere (fun r => r.id == j.id && Tables.isDue db.clock r)
        (Tables.claimed db.clock (draw db.claims.length)) db.tables.jobs }
    claims := db.claims ++ [⟨j.id, draw db.claims.length⟩] }

theorem execute_claim (draw : Nat → String) (db : Db) (stored : Except String Unit) :
    (db.tables.nextDue db.clock = none ∧ execute draw stored db .claim = (db, .ok none)) ∨
      ∃ j, db.tables.nextDue db.clock = some j ∧ execute draw stored db .claim =
        (claimTaken draw db j, .ok (some (Tables.returning (draw db.claims.length) j))) := by
  simp only [execute, Tables.claim]
  cases db.tables.nextDue db.clock with
  | none => exact .inl ⟨rfl, rfl⟩
  | some j => exact .inr ⟨j, rfl, rfl⟩

theorem Latest.append {claims : List Claim} {j : JobRow} {c : Claim} (h : Latest claims j)
    (hother : c.jobId ≠ j.id) : Latest (claims ++ [c]) j := by
  obtain ⟨k, c₀, hk, hjob, htoken, hlast⟩ := h
  have hlt : k < claims.length := (List.getElem?_eq_some_iff.mp hk).1
  refine ⟨k, c₀, ?_, hjob, htoken, ?_⟩
  · rw [List.getElem?_append_left hlt]
    exact hk
  · intro k' c' hlater hk'
    by_cases hin : k' < claims.length
    · rw [List.getElem?_append_left hin] at hk'
      exact hlast k' c' hlater hk'
    · rw [List.getElem?_append_right (Nat.not_lt.mp hin)] at hk'
      rw [List.mem_singleton.mp (List.mem_of_getElem? hk')]
      exact hother

/-- The lease of the last claim. -/
theorem latest_concat (claims : List Claim) {j : JobRow} {c : Claim} (hjob : c.jobId = j.id)
    (htoken : j.leaseToken = some c.leaseToken) : Latest (claims ++ [c]) j := by
  refine ⟨claims.length, c, List.getElem?_concat_length, hjob, htoken, ?_⟩
  intro k' c' hlater hk'
  have hlt := (List.getElem?_eq_some_iff.mp hk').1
  rw [List.length_append, List.length_singleton] at hlt
  omega

theorem claimTaken_keeps (h : Inv draw db) {j : JobRow} (hnext : db.tables.nextDue db.clock = some j) :
    Kept draw db (claimTaken draw db j) := by
  obtain ⟨hj, hdue⟩ := nextDue_eq_some hnext
  refine @jobs_keep draw db h (Tables.claimed db.clock (draw db.claims.length))
    (fun r => r.id == j.id && Tables.isDue db.clock r) _ (fun _ => ⟨rfl, rfl⟩) ?_
    (List.prefix_append _ _) ?_ ?_
  · intro r _ hr
    rw [Bool.and_eq_true, isDue_iff] at hr
    rcases hr.2 with ⟨hs, -⟩ | ⟨hs, -⟩
    · rw [hs]
      decide
    · exact processing_ne_completed hs
  · intro k c hk
    by_cases hin : k < db.claims.length
    · rw [List.getElem?_append_left hin] at hk
      exact h.tokens k c hk
    · have hlt := (List.getElem?_eq_some_iff.mp hk).1
      rw [List.length_append, List.length_singleton] at hlt
      obtain rfl : k = db.claims.length := by omega
      rw [List.getElem?_concat_length] at hk
      rw [← Option.some.inj hk]
  · intro r hr
    obtain ⟨h1, h2, h3, h4⟩ := h.jobs r hr
    split
    · rename_i hp
      rw [Bool.and_eq_true, beq_iff_eq] at hp
      refine ⟨fun hs => (by cases hs), fun _ => ?_, fun _ => ⟨rfl, ?_⟩, fun hs => absurd rfl hs⟩
      · -- it was due, and it was not due before the URLs were invalid
        rcases isDue_iff.mp hp.2 with ⟨hs, hle⟩ | ⟨hs, -⟩
        · exact (h1 hs).mono (fun _ ho _ => ho) hle
        · exact h2 hs
      · exact latest_concat _ hp.1.symm rfl
    · rename_i hp
      refine ⟨h1, h2, fun hs => ⟨(h3 hs).1, (h3 hs).2.append ?_⟩, h4⟩
      intro heq
      have hsame : r = j := eq_of_key h.jobIds hr hj heq.symm
      rw [hsame] at hp
      exact hp (Bool.and_eq_true_iff.mpr ⟨beq_self_eq_true j.id, hdue⟩)

theorem deleteObject_keeps (h : Inv draw db) (d : StorageDelete) :
    Kept draw db { db with deletes := db.deletes ++ [d] } := by
  refine ⟨⟨h.objectIds, h.jobIds, h.bound, ?_, h.tokens⟩, Int.le_refl _, List.prefix_rfl,
    fun _ hd => List.mem_append_left _ hd, fun j hj => ⟨j, hj, rfl, rfl, fun _ => rfl⟩,
    fun _ ho _ => ho⟩
  intro j hj
  obtain ⟨h1, h2, h3, h4⟩ := h.jobs j hj
  exact ⟨h1, h2, h3, h4⟩

theorem execute_keeps (h : Inv draw db) (st : Statement) (stored : Except String Unit) :
    Kept draw db (execute draw stored db st).1 := by
  cases st with
  | countDue => exact h.kept
  | countOpen => exact h.kept
  | claim =>
    rcases execute_claim draw db stored with ⟨_, heq⟩ | ⟨j, hnext, heq⟩
    · rw [heq]
      exact h.kept
    · rw [heq]
      exact claimTaken_keeps h hnext
  | deleteObject job => exact deleteObject_keeps h _
  | complete job => exact complete_keeps h job
  | retry job error => exact retry_keeps h job error
  | extend fileObjectId expiresAt => exact extend_keeps h fileObjectId expiresAt
  | enqueue fileObjectId => exact enqueue_keeps h fileObjectId

theorem perform_keeps (h : Inv draw db) (st : Statement) (m : Moment) :
    Kept draw db (perform draw m st db).1 := by
  obtain ⟨hinv, hlater⟩ := after_keeps h m.elapsed
  unfold perform
  split
  · exact ⟨hinv, hlater⟩
  · obtain ⟨hinv', hlater'⟩ := execute_keeps hinv st m.stored
    exact ⟨hinv', hlater.trans hlater'⟩

end Steps

/-! ## What a worker makes sure of -/

/-- The jobs, with what the workers make sure of. -/
def leasing (draw : Nat → String) : Protocol Statement Statement.Answer AppError Db Moment where
  perform := perform draw
  R := Later
  I := Inv draw
  C := fun _ _ => True
  G := Grants
  refl := Later.refl
  trans := fun _ _ _ => Later.trans
  keeps := by
    intro st db m h _ _
    obtain ⟨hinv, hlater⟩ := perform_keeps h st m
    exact ⟨hinv, hlater⟩

section Calls

variable {draw : Nat → String} {db : Db}

/-- A claim gives the worker a job that it holds from then on. -/
theorem claim_follows :
    Follows (leasing draw) (fun job db' => ∀ held, job = some held → Held db' held)
      (query .claim) db := by
  refine @follows_make _ _ _ _ _ (leasing draw) db .claim _ ?_
  intro b m _ hi _
  refine ⟨trivial, ?_⟩
  intro job hjob c hc held hheld
  obtain ⟨hinv, -⟩ := after_keeps hi m.elapsed
  change (perform draw m .claim b).2 = .ok job at hjob
  change Later (perform draw m .claim b).1 c at hc
  unfold perform at hjob hc
  cases hfault : m.fault with
  | some e =>
    rw [hfault] at hjob
    cases hjob
  | none =>
    rw [hfault] at hjob hc
    dsimp only at hjob hc
    rcases execute_claim draw (b.after m.elapsed) m.stored with ⟨_, heq⟩ | ⟨j, hnext, heq⟩
    · rw [heq] at hjob
      cases Except.ok.inj hjob
      cases hheld
    · rw [heq] at hjob hc
      cases Except.ok.inj hjob
      cases hheld
      obtain ⟨hj, hdue⟩ := nextDue_eq_some hnext
      obtain ⟨hinv', hlater'⟩ := claimTaken_keeps hinv hnext
      obtain ⟨j', hj', hid', hfile', -⟩ := hlater'.jobs j hj
      refine Held.later ⟨List.mem_append_right _ List.mem_cons_self, j', hj', hid', ?_⟩ hc
      rw [hfile']
      rcases isDue_iff.mp hdue with ⟨hs, hle⟩ | ⟨hs, -⟩
      · exact ((hinv.jobs j hj).pending hs).mono (fun _ ho _ => ho) hle
      · exact (hinv.jobs j hj).processing hs

/-- The storage answers; where it returns `Ok`, the object is deleted for the worker. -/
theorem deleteObject_follows {job : FileObjectDeletionJob} (h : Held db job) :
    Follows (leasing draw) (fun deleted db' => deleted = .ok () → Deleted db' job)
      (query (.deleteObject job)) db := by
  refine @follows_make _ _ _ _ _ (leasing draw) db (.deleteObject job) _ ?_
  intro b m hb _ _
  refine ⟨h.later hb, ?_⟩
  intro deleted hdeleted c hc hok
  change (perform draw m (.deleteObject job) b).2 = .ok deleted at hdeleted
  change Later (perform draw m (.deleteObject job) b).1 c at hc
  unfold perform at hdeleted hc
  cases hfault : m.fault with
  | some e =>
    rw [hfault] at hdeleted
    cases hdeleted
  | none =>
    rw [hfault] at hdeleted hc
    have hstored : m.stored = deleted := Except.ok.inj hdeleted
    refine Deleted.later ⟨_, List.mem_append_right _ List.mem_cons_self, rfl, rfl, ?_⟩ hc
    rw [hstored, hok]
    rfl

/-- A statement that the worker has to make sure of nothing for, or has. -/
theorem query_follows {st : Statement} (h : ∀ db', Later db db' → Grants db' st) :
    Follows (leasing draw) (fun _ _ => True) (query st) db := by
  refine @follows_make _ _ _ _ _ (leasing draw) db st _ ?_
  intro b m hb _ _
  exact ⟨h b hb, fun _ _ _ _ => trivial⟩

theorem processJobs_follows (left : Nat) (summary : DeletedFileCleanupSummary) :
    Follows (leasing draw) (fun _ _ => True) (processJobs left summary) db := by
  induction left generalizing summary db with
  | zero => exact follows_done fun _ _ => trivial
  | succ left ih =>
    unfold processJobs
    apply follows_bind claim_follows
    intro job b _ hheld
    cases job with
    | none => exact follows_done fun _ _ => trivial
    | some job =>
      apply follows_bind (deleteObject_follows (hheld job rfl))
      intro deleted c _ hdeleted
      cases deleted with
      | ok u =>
        refine follows_bind (query_follows fun c' hc' => (hdeleted rfl).later hc') ?_
        intro done d _ _
        exact ih _
      | error error =>
        refine follows_bind (query_follows fun _ _ => trivial) ?_
        intro done d _ _
        exact ih _

theorem start_follows (request : Request) :
    Follows (leasing draw) (fun _ _ => True) (start request) db := by
  cases request with
  | cleanup dryRun limit =>
    refine follows_bind (Q := fun _ _ => True) ?_ fun _ _ _ _ => follows_done fun _ _ => trivial
    unfold cleanupDeletedFileObjects
    refine follows_bind (Q := fun _ _ => True) (follows_rejectIf fun _ _ _ => trivial) ?_
    intro _ b _ _
    refine follows_bind (query_follows fun _ _ => trivial) ?_
    intro dueCount b _ _
    refine follows_bind (query_follows fun _ _ => trivial) ?_
    intro pendingCount b _ _
    split
    · exact follows_done fun _ _ => trivial
    · apply follows_bind (processJobs_follows _ _)
      intro summary b _ _
      refine follows_bind (query_follows fun _ _ => trivial) ?_
      exact fun _ _ _ _ => follows_done fun _ _ => trivial
  | extend fileObjectId expiresAt =>
    refine follows_bind (@query_follows draw db (.extend fileObjectId expiresAt) fun _ _ => trivial) ?_
    exact fun _ _ _ _ => follows_done fun _ _ => trivial
  | enqueue fileObjectId =>
    refine follows_bind (@query_follows draw db (.enqueue fileObjectId) fun _ _ => trivial) ?_
    exact fun _ _ _ _ => follows_done fun _ _ => trivial

end Calls

/-! ## What becomes of a job -/

/-- What a statement makes of a job that it finds, at the time `now`. -/
inductive Becomes (now : Int) (j : JobRow) : Statement → JobRow → Prop where
  | same (st : Statement) : Becomes now j st j
  | claimed (leaseToken : String) (h : Tables.isDue now j = true) :
      Becomes now j .claim (Tables.claimed now leaseToken j)
  | completed (job : FileObjectDeletionJob) (h : Tables.isLeased job j = true) :
      Becomes now j (.complete job) (Tables.completed now j)
  | retried (job : FileObjectDeletionJob) (error : String) (h : Tables.isLeased job j = true) :
      Becomes now j (.retry job error) (Tables.retried now job error j)

section Rows

variable {draw : Nat → String} {db : Db}

theorem job_id {id : Int} {j : JobRow} (h : db.tables.job id = some j) : j.id = id := by
  have hid := List.find?_some h
  exact beq_iff_eq.mp hid

theorem job_updateWhere {p : JobRow → Bool} {f : JobRow → JobRow} (hf : ∀ j, (f j).id = j.id)
    (id : Int) :
    (updateWhere p f db.tables.jobs).find? (·.id == id) =
      (db.tables.job id).map fun r => if p r then f r else r := by
  apply find?_updateWhere
  intro r
  rw [hf]

theorem execute_becomes {stored : Except String Unit} {st : Statement} {id : Int} {j j' : JobRow}
    (hj : db.tables.job id = some j)
    (hj' : (execute draw stored db st).1.tables.job id = some j') : Becomes db.clock j st j' := by
  have same : ∀ t : Tables, t.job id = some j' → t.jobs = db.tables.jobs → j' = j := by
    intro t ht hjobs
    unfold Tables.job at ht hj
    rw [hjobs, hj] at ht
    exact (Option.some.inj ht).symm
  cases st with
  | countDue =>
    rw [same _ hj' rfl]
    exact .same _
  | countOpen =>
    rw [same _ hj' rfl]
    exact .same _
  | claim =>
    rcases execute_claim draw db stored with ⟨_, heq⟩ | ⟨row, _, heq⟩
    · rw [heq] at hj'
      rw [same _ hj' rfl]
      exact .same _
    · rw [heq] at hj'
      change (updateWhere _ _ db.tables.jobs).find? (·.id == id) = some j' at hj'
      rw [job_updateWhere (f := Tables.claimed db.clock (draw db.claims.length)) fun _ => rfl, hj] at hj'
      cases hj'
      dsimp only
      split
      · rename_i hdue
        exact .claimed _ (Bool.and_eq_true_iff.mp hdue).2
      · exact .same _
  | deleteObject job =>
    rw [same _ hj' rfl]
    exact .same _
  | complete job =>
    change (updateWhere _ _ db.tables.jobs).find? (·.id == id) = some j' at hj'
    rw [job_updateWhere (f := Tables.completed db.clock) fun _ => rfl, hj] at hj'
    cases hj'
    dsimp only
    split
    · rename_i hleased
      exact .completed job hleased
    · exact .same _
  | retry job error =>
    change (updateWhere _ _ db.tables.jobs).find? (·.id == id) = some j' at hj'
    rw [job_updateWhere (f := Tables.retried db.clock job error) fun _ => rfl, hj] at hj'
    cases hj'
    dsimp only
    split
    · rename_i hleased
      exact .retried job error hleased
    · exact .same _
  | extend fileObjectId expiresAt =>
    rw [same _ hj' ?_]
    · exact .same _
    · simp only [execute, Tables.extendUploadUrlExpiration]
      split <;> rfl
  | enqueue fileObjectId =>
    suffices j' = j by
      rw [this]
      exact .same _
    change ((db.tables.enqueueDeletedFileObject db.clock fileObjectId).1).job id = some j' at hj'
    unfold Tables.enqueueDeletedFileObject at hj'
    split at hj'
    · exact same _ hj' rfl
    split at hj'
    · exact same _ hj' rfl
    split at hj'
    · exact same _ hj' rfl
    split at hj'
    · exact same _ hj' rfl
    split at hj'
    · exact same _ hj' rfl
    · unfold Tables.job at hj hj'
      rw [List.find?_append, hj] at hj'
      exact (Option.some.inj hj').symm

theorem perform_becomes {m : Moment} {st : Statement} {id : Int} {j j' : JobRow}
    (hj : db.tables.job id = some j)
    (hj' : (perform draw m st db).1.tables.job id = some j') :
    Becomes (db.clock + m.elapsed) j st j' := by
  unfold perform at hj'
  split at hj'
  · change db.tables.job id = some j' at hj'
    rw [hj] at hj'
    cases hj'
    exact .same _
  · exact @execute_becomes draw (db.after m.elapsed) m.stored st id j j' hj hj'

end Rows

/-! ## Safe leases -/

/-- The job of the worker was claimed again. -/
def Reclaimed (db : Db) (job : FileObjectDeletionJob) : Prop :=
  ∃ (k k' : Nat) (c c' : Claim), k < k' ∧ db.claims[k]? = some c ∧ c = ⟨job.id, job.leaseToken⟩ ∧
    db.claims[k']? = some c' ∧ c'.jobId = job.id

/-- What a statement may do, in the state that it finds. -/
structure LeasedSafely (draw : Nat → String) (db : Db) (st : Statement) : Prop where
  /-- A job is completed by a worker for whom the storage deleted the object, under its token. -/
  completes : ∀ m id j j', db.tables.job id = some j →
    (perform draw m st db).1.tables.job id = some j' → j.status ≠ .completed →
    j'.status = .completed → ∃ job, st = .complete job ∧ job.id = id ∧ j.status = .processing ∧
      j.leaseToken = some job.leaseToken ∧ Deleted db job
  /-- A completed job stays as it is, and no claim returns it. -/
  final : ∀ m id j, db.tables.job id = some j → j.status = .completed →
    (perform draw m st db).1.tables.job id = some j ∧
      ∀ job, st = .claim → (perform draw m .claim db).2 = .ok (some job) → job.id ≠ id
  /-- A worker whose job was claimed again changes nothing. -/
  stale : ∀ m job, (st = .complete job ∨ ∃ error, st = .retry job error) → Reclaimed db job →
    (perform draw m st db).1.tables = db.tables
  /-- A storage delete does not start before the last upload URL of the object is long invalid. -/
  waits : ∀ job, st = .deleteObject job → ∃ j o, db.tables.job job.id = some j ∧
    db.tables.object j.fileObjectId = some o ∧ o.objectKey = job.objectKey ∧
    ∀ e, o.uploadUrlExpiresAt = some e → e + urlGrace ≤ db.clock

/-- Every open job waits or is leased until some time, from which on it can be claimed. -/
def Claimable (draw : Nat → String) (db : Db) : Prop :=
  ∀ j ∈ db.tables.jobs, j.status ≠ .completed →
    (j.status = .pending ∨ (j.status = .processing ∧ j.leaseUntil.isSome = true)) ∧
    ∃ time, ∀ now, time ≤ now → Tables.isDue now j = true ∧
      ∃ job, (execute draw (.ok ()) { db with clock := now } .claim).2 = .ok (some job)

section Safety

variable {draw : Nat → String} {db : Db} {st : Statement}

theorem completes_of_grants (hgrants : Grants db st) {m : Moment} {id : Int} {j j' : JobRow}
    (hj : db.tables.job id = some j) (hj' : (perform draw m st db).1.tables.job id = some j')
    (hopen : j.status ≠ .completed) (hdone : j'.status = .completed) :
    ∃ job, st = .complete job ∧ job.id = id ∧ j.status = .processing ∧
      j.leaseToken = some job.leaseToken ∧ Deleted db job := by
  cases perform_becomes hj hj' with
  | same => exact absurd hdone hopen
  | claimed leaseToken hdue => cases hdone
  | completed job hleased =>
    obtain ⟨hid, hprocessing, htoken⟩ := isLeased_iff.mp hleased
    exact ⟨job, rfl, hid.symm.trans (job_id hj), hprocessing, htoken, hgrants⟩
  | retried job error hleased => cases hdone

theorem not_isDue_completed {now : Int} {j : JobRow} (h : j.status = .completed) :
    Tables.isDue now j ≠ true := by
  intro hdue
  rcases isDue_iff.mp hdue with ⟨hs, -⟩ | ⟨hs, -⟩
  · rw [h] at hs
    cases hs
  · rw [h] at hs
    cases hs

/-- A completed job is found unchanged. -/
theorem completed_stays (h : Inv draw db) {m : Moment} {id : Int} {j : JobRow}
    (hj : db.tables.job id = some j) (hdone : j.status = .completed) :
    (perform draw m st db).1.tables.job id = some j := by
  obtain ⟨hinv, hlater⟩ := perform_keeps h st m
  obtain ⟨j', hj', hid, -, hsame⟩ := hlater.jobs j (List.mem_of_find?_eq_some hj)
  obtain rfl := hsame hdone
  rw [← job_id hj]
  exact find?_of_mem hinv.jobIds hj'

theorem claim_skips_completed (h : Inv draw db) {m : Moment} {id : Int} {j : JobRow}
    {job : FileObjectDeletionJob} (hj : db.tables.job id = some j) (hdone : j.status = .completed)
    (hclaim : (perform draw m .claim db).2 = .ok (some job)) : job.id ≠ id := by
  unfold perform at hclaim
  split at hclaim
  · cases hclaim
  rcases execute_claim draw (db.after m.elapsed) m.stored with ⟨_, heq⟩ | ⟨row, hnext, heq⟩
  · rw [heq] at hclaim
    cases Except.ok.inj hclaim
  · rw [heq] at hclaim
    cases Except.ok.inj hclaim
    obtain ⟨hrow, hdue⟩ := @nextDue_eq_some (db.after m.elapsed) _ _ hnext
    intro hid
    have hsame : row = j :=
      eq_of_key h.jobIds hrow (List.mem_of_find?_eq_some hj) (hid.trans (job_id hj).symm)
    rw [hsame] at hdue
    exact not_isDue_completed hdone hdue

/-- No row has the lease of a worker whose job was claimed again. -/
theorem not_leased_of_reclaimed (h : Inv draw db) (hdraw : Function.Injective draw)
    {job : FileObjectDeletionJob} (hagain : Reclaimed db job) :
    ∀ r ∈ db.tables.jobs, Tables.isLeased job r = false := by
  intro r hr
  rw [← Bool.not_eq_true]
  intro hleased
  obtain ⟨hid, hprocessing, htoken⟩ := isLeased_iff.mp hleased
  obtain ⟨-, k₀, c₀, hk₀, -, htoken₀, hlast⟩ := (h.jobs r hr).leased hprocessing
  obtain ⟨k, k', c, c', hlt, hk, rfl, hk', hjob'⟩ := hagain
  -- the row has the token of the worker's own claim, which is not the last one
  have hdrawn : draw k₀ = draw k := by
    rw [← h.tokens k₀ c₀ hk₀, ← h.tokens k _ hk]
    exact Option.some.inj (htoken₀.symm.trans htoken)
  obtain rfl := hdraw hdrawn
  exact hlast k' c' hlt hk' (hjob'.trans hid.symm)

theorem stale_changes_nothing (h : Inv draw db) (hdraw : Function.Injective draw) {m : Moment}
    {job : FileObjectDeletionJob} (hst : st = .complete job ∨ ∃ error, st = .retry job error)
    (hagain : Reclaimed db job) : (perform draw m st db).1.tables = db.tables := by
  have same : ∀ f, { db.tables with jobs := updateWhere (Tables.isLeased job) f db.tables.jobs } =
      db.tables := by
    intro f
    rw [updateWhere_eq_self (not_leased_of_reclaimed h hdraw hagain)]
  unfold perform
  split
  · rfl
  rcases hst with rfl | ⟨error, rfl⟩
  · exact same _
  · exact same _

theorem waits_of_held (h : Inv draw db) {job : FileObjectDeletionJob} (hheld : Held db job) :
    ∃ j o, db.tables.job job.id = some j ∧ db.tables.object j.fileObjectId = some o ∧
      o.objectKey = job.objectKey ∧
      ∀ e, o.uploadUrlExpiresAt = some e → e + urlGrace ≤ db.clock := by
  obtain ⟨-, j, hj, hid, o, ho, hfile, hkey, -, hexpires⟩ := hheld
  refine ⟨j, o, ?_, ?_, hkey, hexpires⟩
  · rw [← hid]
    exact find?_of_mem h.jobIds hj
  · rw [← hfile]
    exact find?_of_mem h.objectIds ho

theorem leasedSafely_of_grants (h : Inv draw db) (hdraw : Function.Injective draw)
    (hgrants : Grants db st) : LeasedSafely draw db st := by
  refine ⟨?_, ?_, ?_, ?_⟩
  · intro m id j j' hj hj' hopen hdone
    exact completes_of_grants hgrants hj hj' hopen hdone
  · intro m id j hj hdone
    exact ⟨completed_stays h hj hdone, fun job _ hclaim => claim_skips_completed h hj hdone hclaim⟩
  · intro m job hst hagain
    exact stale_changes_nothing h hdraw hst hagain
  · rintro job rfl
    exact waits_of_held h hgrants

theorem claimable_of_inv (h : Inv draw db) : Claimable draw db := by
  have takes : ∀ now, ∀ j ∈ db.tables.jobs, Tables.isDue now j = true →
      ∃ job, (execute draw (.ok ()) { db with clock := now } .claim).2 = .ok (some job) := by
    intro now j hj hdue
    rcases execute_claim draw { db with clock := now } (.ok ()) with ⟨hnone, _⟩ | ⟨row, _, heq⟩
    · have hempty := List.head?_eq_none_iff.mp hnone
      have hmem : j ∈ orderBy Tables.dueLe (db.tables.jobs.filter (Tables.isDue now)) :=
        mem_orderBy.mpr (List.mem_filter.mpr ⟨hj, hdue⟩)
      change orderBy Tables.dueLe (db.tables.jobs.filter (Tables.isDue now)) = [] at hempty
      rw [hempty] at hmem
      cases hmem
    · exact ⟨_, by rw [heq]⟩
  intro j hj hopen
  cases hs : j.status with
  | completed => exact absurd hs hopen
  | pending =>
    refine ⟨.inl rfl, j.nextAttemptAt, ?_⟩
    intro now hnow
    have hdue := isDue_iff.mpr (.inl ⟨hs, hnow⟩)
    exact ⟨hdue, takes now j hj hdue⟩
  | processing =>
    have hsome := ((h.jobs j hj).leased hs).1
    obtain ⟨l, hl⟩ := Option.isSome_iff_exists.mp hsome
    refine ⟨.inr ⟨rfl, hsome⟩, l, ?_⟩
    intro now hnow
    have hdue := isDue_iff.mpr (.inr ⟨hs, l, hl, hnow⟩)
    exact ⟨hdue, takes now j hj hdue⟩

end Safety

/-- From tables without jobs on, in every run of workers, of extensions and of files that are queued,
with a token of its own for each claim, each statement is safe, and every open job can be claimed
again. -/
theorem deletion_jobs_are_leased_safely (draw : Nat → String) (hdraw : Function.Injective draw)
    (db : Db) (hobjects : (db.tables.objects.map (·.id)).Nodup)
    (h0 : db.tables.jobs = [] ∧ db.claims = [])
    (tr : List (Entry Server (Turn Request Moment) Unit)) (s : Server)
    (hrun : Run (serve (perform draw) start) { db := db, calls := [] } tr s) :
    (∀ x ∈ tr, Meets (LeasedSafely draw) x.pre x.event) ∧ Claimable draw s.db := by
  have hinit : Inv draw db := by
    refine ⟨hobjects, ?_, ?_, ?_, ?_⟩
    · simp [h0.1]
    · simp [h0.1]
    · intro j hj
      rw [h0.1] at hj
      cases hj
    · intro k c hc
      rw [h0.2] at hc
      cases hc
  obtain ⟨hinv, hsteps⟩ := serve_follows (D := leasing draw) hinit
    (fun request d => @start_follows draw d request) hrun (fun x _ => by
      cases x.event with
      | begin c => trivial
      | resume i m => exact fun _ _ => trivial)
  refine ⟨?_, claimable_of_inv hinv⟩
  intro x hx
  obtain ⟨hpre, -, hgrants⟩ := hsteps x hx
  cases hevent : x.event with
  | begin request => trivial
  | resume i m =>
    rw [hevent] at hgrants
    exact fun st hst => leasedSafely_of_grants hpre hdraw (hgrants st hst)

/-- One file with an upload URL that is valid up to the beginning of the run. -/
def uploadedFile : Db where
  clock := 0
  tables :=
    { objects := [⟨1, some 1, "oss", "files", "a.txt", .uploaded, some 0⟩]
      configs := [⟨1, "oss", "https://oss", "", "files"⟩]
      jobs := []
      nextJob := 1 }
  claims := []
  deletes := []

/-- The tokens of the sample runs. -/
def countedToken (n : Nat) : String := String.ofList (List.replicate n 'x')

theorem countedToken_injective : Function.Injective countedToken := by
  intro m n h
  have hlists := congrArg String.toList h
  unfold countedToken at hlists
  rw [String.toList_ofList, String.toList_ofList] at hlists
  have hlengths := congrArg List.length hlists
  rw [List.length_replicate, List.length_replicate] at hlengths
  exact hlengths

def later (elapsed : Nat) : Moment := { elapsed, fault := none, stored := .ok () }

/-- The file is queued and, four hours and five minutes later, a worker deletes it. -/
def deletedFile : List (Turn Request Moment) :=
  [.begin (.enqueue 1), .resume 0 (later 0), .begin (.cleanup false 5), .resume 1 (later 14700),
    .resume 1 (later 0), .resume 1 (later 0), .resume 1 (later 0), .resume 1 (later 0),
    .resume 1 (later 0), .resume 1 (later 0)]

theorem deleted_file_is_leased_safely :
    ∃ tr s, exec (serve (perform countedToken) start) ({ db := uploadedFile, calls := [] } : Server)
        deletedFile = some (tr, s) ∧
      s.db.tables.jobs.map (·.status) = [.completed] ∧ s.db.deletes.map (·.startedAt) = [14700] ∧
      (∀ x ∈ tr, Meets (LeasedSafely countedToken) x.pre x.event) ∧ Claimable countedToken s.db := by
  obtain ⟨r, hr⟩ : ∃ r, exec (serve (perform countedToken) start)
      ({ db := uploadedFile, calls := [] } : Server) deletedFile = some r := ⟨_, rfl⟩
  have hdone : (exec (serve (perform countedToken) start)
      ({ db := uploadedFile, calls := [] } : Server) deletedFile).map (fun r =>
        (r.2.db.tables.jobs.map (·.status), r.2.db.deletes.map (·.startedAt))) =
      some ([.completed], [14700]) := by
    decide +kernel
  rw [hr] at hdone
  obtain ⟨hstatus, htime⟩ := Prod.mk.inj (Option.some.inj hdone)
  refine ⟨r.1, r.2, hr, hstatus, htime, ?_⟩
  exact deletion_jobs_are_leased_safely countedToken countedToken_injective uploadedFile
    (by decide) ⟨rfl, rfl⟩ r.1 r.2 (run_of_exec hr)

end Deletion
end Files
end Yuance
