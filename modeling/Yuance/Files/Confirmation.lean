import Yuance.Files.Validation
import Yuance.Lib.Loops
import Yuance.Lib.Seen

/-!
# Yuance.Files.Confirmation

The confirmations of one upload in `api/src/domains/files.rs`, beside each other and beside its
deletion. A confirmation with a checksum reads the state of the file, decides, updates the row if it
still is as it was read, and reads it again where it is not.

* `Statement`, `execute`: the statements on the row.
* `markFileUploadedWithChecksum`: the call, statement by statement.
* `Settled`: behind a confirmation the checksum stays.
-/

namespace Yuance
namespace Files
namespace Confirmation

open Lib Platform

inductive Statement where
  /-- `SELECT status, checksum_sha256`. -/
  | state
  /-- The query of `get_file_object`. -/
  | fileObject
  /-- The update of `mark_file_uploaded`. -/
  | upload
  /-- The update of `mark_file_uploaded_with_checksum`. -/
  | confirm (checksumSha256 : String)
  /-- `SET status = 'deleted'`, in the transactions that archive the file. -/
  | archive
  /-- `SET status = 'deleted' .. WHERE status = 'pending'`, when old uploads are cleaned up. -/
  | expire
  deriving DecidableEq

/-- The answer of `confirm` is the number of rows. -/
abbrev Statement.Answer : Statement → Type
  | state => Option (ObjectStatus × String)
  | fileObject => FileObject
  | upload => Unit
  | confirm _ => Nat
  | archive => Unit
  | expire => Unit

/-- `status = 'pending' AND (checksum_sha256 = '' OR checksum_sha256 = ?1)`. -/
def confirmable (checksumSha256 : String) (f : FileObject) : Bool :=
  f.status == .pending && (f.checksumSha256 == "" || f.checksumSha256 == checksumSha256)

/-- The row, if there is one. -/
def execute (db : Option FileObject) : (s : Statement) → Option FileObject × Except AppError s.Answer
  | .state => (db, .ok (db.map fun f => (f.status, f.checksumSha256)))
  | .fileObject => (db, okOr db .storage)
  | .upload =>
    (db.map fun f => if f.status = .pending then { f with status := .uploaded } else f, .ok ())
  | .confirm checksumSha256 =>
    if db.any (confirmable checksumSha256) then
      (db.map fun f => { f with status := .uploaded, checksumSha256 }, .ok 1)
    else (db, .ok 0)
  | .archive => (db.map fun f => { f with status := .deleted }, .ok ())
  | .expire =>
    (db.map fun f => if f.status = .pending then { f with status := .deleted } else f, .ok ())

/-- A statement may fail, and then it does nothing. -/
def perform (fault : Option AppError) (s : Statement) (db : Option FileObject) :
    Option FileObject × Except AppError s.Answer :=
  match fault with
  | some e => (db, .error e)
  | none => execute db s

abbrev Task (α : Type) := Call Statement Statement.Answer AppError α

def query (s : Statement) : Task s.Answer := Call.make s

/-- The call behind the state that it reads first. -/
def confirmRead (actual : String) (state : ObjectStatus × String) : Task FileObject :=
  match state.1 with
  | .uploaded =>
    if state.2 = actual then query .fileObject
    else Call.fail (.conflict "附件已上传，但对象摘要与本次确认不一致")
  | .deleted => Call.fail (.notFound "附件已归档")
  | .pending => do
    Call.rejectIf (state.2 ≠ "" ∧ state.2 ≠ actual) (.badRequest "上传对象 SHA-256 与登记摘要不一致")
    let rows ← query (.confirm actual)
    if rows = 1 then query .fileObject
    else do
      let current ← query .state
      let current ← Call.okOr current (.notFound "文件对象不存在")
      if current = (.uploaded, actual) then query .fileObject
      else Call.fail (.conflict "附件状态已变化，请重新读取附件后再确认")

def markFileUploadedWithChecksum (fileObjectId : Int) (actualChecksumSha256 : String) :
    Task FileObject := do
  Call.rejectIf (fileObjectId ≤ 0) (.badRequest "文件对象 ID 无效")
  let actual ← Call.ofExcept (validateChecksumSha256 actualChecksumSha256)
  Call.rejectIf (actual = "") (.badRequest "文件 SHA-256 校验值不能为空")
  let state ← query .state
  let state ← Call.okOr state (.notFound "文件对象不存在")
  confirmRead actual state

def markFileUploaded (fileObjectId : Int) : Task FileObject := do
  Call.rejectIf (fileObjectId ≤ 0) (.badRequest "文件对象 ID 无效")
  query .upload
  query .fileObject

inductive Request where
  | markFileUploadedWithChecksum (actualChecksumSha256 : String)
  | markFileUploaded
  | archive
  | expire
  deriving DecidableEq

/-- What a call returns; a deletion returns no file. -/
def start (fileObjectId : Int) : Request → Task (Option FileObject)
  | .markFileUploadedWithChecksum actualChecksumSha256 => do
    let file ← markFileUploadedWithChecksum fileObjectId actualChecksumSha256
    pure (some file)
  | .markFileUploaded => do
    let file ← markFileUploaded fileObjectId
    pure (some file)
  | .archive => do
    query .archive
    pure none
  | .expire => do
    query .expire
    pure none

abbrev Server := Serving Statement Statement.Answer AppError (Option FileObject) (Option FileObject)

abbrev Step := Entry Server (Turn Request (Option AppError)) Unit

/-! ## Statements -/

/-- The checksum of a file that is not pending stays, and it does not become pending again. -/
def Settles (db db' : Option FileObject) : Prop :=
  ∀ f, db = some f → f.status ≠ .pending →
    ∃ f', db' = some f' ∧ f'.status ≠ .pending ∧ f'.checksumSha256 = f.checksumSha256

theorem Settles.refl (db : Option FileObject) : Settles db db := fun f h hf => ⟨f, h, hf, rfl⟩

theorem Settles.trans (a b c : Option FileObject) (hab : Settles a b) (hbc : Settles b c) :
    Settles a c := by
  intro f hf hstatus
  obtain ⟨f', hf', hstatus', hsum'⟩ := hab f hf hstatus
  obtain ⟨f'', hf'', hstatus'', hsum''⟩ := hbc f' hf' hstatus'
  exact ⟨f'', hf'', hstatus'', hsum''.trans hsum'⟩

theorem execute_settles (db : Option FileObject) (s : Statement) : Settles db (execute db s).1 := by
  intro f hf hstatus
  subst hf
  cases s with
  | state => exact ⟨f, rfl, hstatus, rfl⟩
  | fileObject => exact ⟨f, rfl, hstatus, rfl⟩
  | upload =>
    refine ⟨f, ?_, hstatus, rfl⟩
    show some (if f.status = .pending then _ else f) = some f
    rw [if_neg hstatus]
  | confirm checksumSha256 =>
    refine ⟨f, ?_, hstatus, rfl⟩
    have hno : (some f).any (confirmable checksumSha256) = false := by
      show (f.status == .pending && _) = false
      rw [beq_eq_false_iff_ne.mpr hstatus, Bool.false_and]
    show (if (some f).any (confirmable checksumSha256) = true then _ else _ : _ × _).1 = some f
    rw [hno]
    rfl
  | archive => exact ⟨_, rfl, fun h => (by cases h), rfl⟩
  | expire =>
    refine ⟨f, ?_, hstatus, rfl⟩
    show some (if f.status = .pending then _ else f) = some f
    rw [if_neg hstatus]

theorem perform_settles (fault : Option AppError) (db : Option FileObject) (s : Statement) :
    Settles db (perform fault s db).1 := by
  cases fault with
  | some e => exact Settles.refl db
  | none => exact execute_settles db s

/-- The file is uploaded with the checksum. -/
def HasChecksum (checksumSha256 : String) (db : Option FileObject) : Prop :=
  ∃ f, db = some f ∧ f.status = .uploaded ∧ f.checksumSha256 = checksumSha256

/-- From now on the checksum of the file is this one. -/
def Settled (checksumSha256 : String) (db : Option FileObject) : Prop :=
  ∃ f, db = some f ∧ f.status ≠ .pending ∧ f.checksumSha256 = checksumSha256

theorem Settled.later {checksumSha256 : String} {db db' : Option FileObject}
    (h : Settled checksumSha256 db) (hlater : Settles db db') : Settled checksumSha256 db' := by
  obtain ⟨f, hf, hstatus, rfl⟩ := h
  exact hlater f hf hstatus

theorem HasChecksum.settled {checksumSha256 : String} {db : Option FileObject}
    (h : HasChecksum checksumSha256 db) : Settled checksumSha256 db := by
  obtain ⟨f, hf, hstatus, hsum⟩ := h
  refine ⟨f, hf, ?_, hsum⟩
  rw [hstatus]
  decide

/-- What the answer of a statement tells about the file. -/
def Shows (checksumSha256 : String) : (s : Statement) → s.Answer → Prop
  | .state, answer => answer = some (.uploaded, checksumSha256)
  | .confirm checksum, rows => checksum = checksumSha256 ∧ rows = 1
  | _, _ => False

/-- The file is uploaded with the checksum when the statement is made, or behind it. -/
theorem shown {checksumSha256 : String} {fault : Option AppError} {s : Statement} {answer : s.Answer}
    {db : Option FileObject} (hshows : Shows checksumSha256 s answer)
    (h : (perform fault s db).2 = .ok answer) : HasChecksum checksumSha256 (perform fault s db).1 := by
  cases fault with
  | some e => cases h
  | none =>
    cases s with
    | state =>
      have hread : db.map (fun f => (f.status, f.checksumSha256)) =
          some (.uploaded, checksumSha256) := (Except.ok.inj h).trans hshows
      obtain ⟨f, hf, heq⟩ := Option.map_eq_some_iff.mp hread
      exact ⟨f, hf, congrArg Prod.fst heq, congrArg Prod.snd heq⟩
    | confirm checksum =>
      obtain ⟨rfl, hrows⟩ := hshows
      unfold perform execute at h ⊢
      dsimp only at h ⊢
      split at h
      · rename_i hany
        obtain ⟨f, hf, _⟩ := (Option.any_eq_true _ _).mp hany
        rw [if_pos hany]
        exact ⟨_, by rw [hf]; rfl, rfl, rfl⟩
      · rw [hrows] at h
        cases h
    | fileObject => exact absurd hshows id
    | upload => exact absurd hshows id
    | archive => exact absurd hshows id
    | expire => exact absurd hshows id

/-! ## Calls -/

/-- Any statements, beside any others. -/
def settling : Discipline Statement Statement.Answer AppError (Option FileObject) (Option AppError) where
  perform := perform
  R := Settles
  I := fun _ => True
  C := fun _ _ => True
  refl := Settles.refl
  trans := Settles.trans

section Calls

variable {fileObjectId : Int} {db : Option FileObject} {actual : String}

theorem quiet_query {s : Statement} : Quiet settling (query s) db :=
  quiet_make fun b e _ _ _ => ⟨trivial, perform_settles e b s⟩

variable (actual) in
/-- A statement whose answer shows the checksum settles it. -/
theorem keeps_shown {s : Statement} :
    Keeps settling (fun answer db => Shows actual s answer → Settled actual db) (query s) db := by
  apply keeps_make
  intro b e _ _ _
  refine ⟨trivial, perform_settles e b s, ?_⟩
  intro answer hanswer c hc hshows
  exact (shown hshows hanswer).settled.later hc

/-- A statement that goes behind what is settled. -/
theorem keeps_settled (s : Statement) (h : Settled actual db) :
    Keeps settling (fun _ db => Settled actual db) (query s) db := by
  apply keeps_make
  intro b e hb _ _
  refine ⟨trivial, perform_settles e b s, ?_⟩
  intro _ _ c hc
  exact (h.later hb).later (Settles.trans _ _ _ (perform_settles e b s) hc)

theorem confirmRead_keeps {state : ObjectStatus × String}
    (h : Shows actual .state (some state) → Settled actual db) :
    Keeps settling (fun _ db => Settled actual db) (confirmRead actual state) db := by
  obtain ⟨status, checksum⟩ := state
  cases status with
  | uploaded =>
    show Keeps settling _ (if checksum = actual then _ else _) db
    split
    · rename_i hsame
      exact keeps_settled .fileObject (h (by rw [hsame]; rfl))
    · exact ⟨trivial⟩
  | deleted => exact ⟨trivial⟩
  | pending =>
    refine Quiet.then quiet_rejectIf fun _ b => ?_
    refine keeps_bind (keeps_shown actual) fun rows b _ hrows => ?_
    show Keeps settling _ (if rows = (1 : Nat) then _ else _) b
    split
    · rename_i hone
      exact keeps_settled .fileObject (hrows ⟨rfl, hone⟩)
    · refine keeps_bind (keeps_shown actual) fun current b _ hcurrent => ?_
      refine keeps_bind (Q := fun current' b => current = some current' ∧
        (current = some (.uploaded, actual) → Settled actual b)) ?_ fun current' b _ hread => ?_
      · refine keeps_okOr fun a ha c hc => ⟨ha, fun hup => (hcurrent hup).later hc⟩
      · show Keeps settling _ (if current' = (.uploaded, actual) then _ else _) b
        split
        · rename_i hup
          exact keeps_settled .fileObject (hread.2 (hup ▸ hread.1))
        · exact ⟨trivial⟩

/-- A confirmation that returned leaves its checksum. -/
theorem confirmation_keeps {actualChecksumSha256 : String} :
    Keeps settling (fun _ db => Settled (trim actualChecksumSha256) db)
      (start fileObjectId (.markFileUploadedWithChecksum actualChecksumSha256)) db := by
  refine keeps_bind (Q := fun _ db => Settled (trim actualChecksumSha256) db) ?_ fun a b _ hb =>
    keeps_done fun c hc => hb.later hc
  refine Quiet.then quiet_rejectIf fun _ b => ?_
  refine keeps_bind (Q := fun actual _ => actual = trim actualChecksumSha256) ?_ ?_
  · refine keeps_check fun actual hactual _ _ => ?_
    unfold validateChecksumSha256 at hactual
    obtain ⟨_, _, hactual⟩ := bind_eq_ok.mp hactual
    exact (Except.ok.inj hactual).symm
  · intro actual b _ hactual
    subst hactual
    refine Quiet.then quiet_rejectIf fun _ b => ?_
    refine keeps_bind (keeps_shown (trim actualChecksumSha256)) fun state b _ hstate => ?_
    refine keeps_bind (Q := fun state' b => state = some state' ∧
      (Shows (trim actualChecksumSha256) .state state → Settled (trim actualChecksumSha256) b)) ?_
      fun state' b _ hread => ?_
    · exact keeps_okOr fun a ha c hc => ⟨ha, fun hup => (hstate hup).later hc⟩
    · exact confirmRead_keeps fun hup => hread.2 (hread.1 ▸ hup)

theorem start_quiet {request : Request} : Quiet settling (start fileObjectId request) db := by
  cases request with
  | markFileUploadedWithChecksum actualChecksumSha256 => exact confirmation_keeps.quiet
  | markFileUploaded =>
    refine quiet_bind ?_ fun _ _ => quiet_done
    refine quiet_bind quiet_rejectIf fun _ _ => ?_
    exact quiet_bind quiet_query fun _ _ => quiet_query
  | archive => exact quiet_bind quiet_query fun _ _ => quiet_done
  | expire => exact quiet_bind quiet_query fun _ _ => quiet_done

/-- A confirmation does not return without an answer that shows its checksum. -/
theorem confirmRead_sees {state : ObjectStatus × String} {α : Type} {f : FileObject → Task α}
    (h : ¬Shows actual .state (some state)) :
    Sees (Shows actual) (confirmRead actual state >>= f) := by
  obtain ⟨status, checksum⟩ := state
  cases status with
  | uploaded =>
    show Sees _ ((if checksum = actual then _ else _) >>= f)
    split
    · rename_i hsame
      exact absurd (by rw [hsame]; rfl) h
    · exact sees_fail
  | deleted => exact sees_fail
  | pending =>
    unfold confirmRead
    dsimp only
    rw [Call.bind_bind]
    refine sees_rejectIf fun _ => ?_
    rw [Call.bind_bind]
    refine sees_ask fun rows => ?_
    by_cases hone : rows = (1 : Nat)
    · exact .inl ⟨rfl, hone⟩
    · rw [if_neg hone, Call.bind_bind]
      refine .inr (sees_ask fun current => ?_)
      by_cases hup : current = some (.uploaded, actual)
      · exact .inl hup
      · right
        rw [Call.bind_bind]
        refine sees_okOr fun current' hread => ?_
        have hne : current' ≠ (.uploaded, actual) := fun heq => hup (heq ▸ hread)
        rw [if_neg hne]
        exact sees_fail

end Calls

/-! ## Runs -/

section Runs

variable {fileObjectId : Int} {db : Option FileObject} {tr : List Step} {t : Server} {i : Nat}
  {checksum : String} {file : Option FileObject}

theorem meets_settling (s : Server) (e : Turn Request (Option AppError)) : Meets settling.C s e := by
  cases e with
  | begin request => trivial
  | resume i fault => exact fun _ _ => trivial

theorem confirmation_settled (hrun : Run (serve perform (start fileObjectId)) ⟨db, []⟩ tr t)
    (hbegun : (begun tr)[i]? = some (.markFileUploadedWithChecksum checksum))
    (hdone : t.calls[i]? = some (.done file)) : Settled (trim checksum) t.db := by
  have hquiet : ∀ request db, Quiet settling (start fileObjectId request) db :=
    fun _ _ => start_quiet
  have hthis : ∀ db, Keeps settling (fun _ db => Settled (trim checksum) db)
      (start fileObjectId (.markFileUploadedWithChecksum checksum)) db := fun _ => confirmation_keeps
  exact serve_returns trivial hquiet hthis hrun (fun x _ => meets_settling x.pre x.event) hbegun
    hdone

/-- The statement of a confirmation behind which the file is uploaded with its checksum. -/
theorem confirmation_seen (hrun : Run (serve perform (start fileObjectId)) ⟨db, []⟩ tr t)
    (hbegun : (begun tr)[i]? = some (.markFileUploadedWithChecksum checksum))
    (hdone : t.calls[i]? = some (.done file)) :
    ∃ x ∈ tr, ∃ fault st, x.event = .resume i fault ∧ nextStatement x.pre i = some st ∧
      HasChecksum (trim checksum) (perform fault st x.pre.db).1 := by
  have hsees : Sees (Shows (trim checksum))
      (start fileObjectId (.markFileUploadedWithChecksum checksum)) := by
    unfold start markFileUploadedWithChecksum
    dsimp only
    simp only [Call.bind_bind]
    refine sees_rejectIf fun _ => sees_check fun actual hactual => sees_rejectIf fun _ => ?_
    unfold validateChecksumSha256 at hactual
    obtain ⟨_, _, hactual⟩ := bind_eq_ok.mp hactual
    obtain rfl := Except.ok.inj hactual
    refine sees_ask fun state => ?_
    by_cases hup : Shows (trim checksum) .state state
    · exact .inl hup
    · right
      refine sees_okOr fun state' hread => ?_
      exact confirmRead_sees (hread ▸ hup)
  obtain ⟨x, hx, st, answer, hshows, fault, hevent, hnext, hanswer⟩ :=
    serve_sees (M := fun _ => Shows (trim checksum)) hsees hrun hbegun hdone
  exact ⟨x, hx, fault, st, hevent, hnext, shown hshows hanswer⟩

theorem settles_later (hrun : Run (serve perform (start fileObjectId)) ⟨db, []⟩ tr t) :
    ∀ x ∈ tr, Settles x.pre.db t.db := by
  have hquiet : ∀ request db, Quiet settling (start fileObjectId request) db :=
    fun _ _ => start_quiet
  intro x hx
  exact ((serve_invariant trivial hquiet hrun fun x _ => meets_settling x.pre x.event).2 x hx).2

/-- In every run of confirmations, uploads and deletions of one file: two confirmations that returned
carry the same checksum, white space around it aside; a confirmation that returned made a statement
behind which the file was uploaded with its checksum; and the checksum of a file that is uploaded
with one stays. -/
theorem confirmations_agree (fileObjectId : Int) (db : Option FileObject) (tr : List Step) (t : Server)
    (hrun : Run (serve perform (start fileObjectId)) ⟨db, []⟩ tr t) :
    (∀ (i j : Nat) checksum checksum' file file',
        (begun tr)[i]? = some (.markFileUploadedWithChecksum checksum) →
        (begun tr)[j]? = some (.markFileUploadedWithChecksum checksum') →
        t.calls[i]? = some (.done file) → t.calls[j]? = some (.done file') →
        trim checksum = trim checksum') ∧
      (∀ (i : Nat) checksum file,
        (begun tr)[i]? = some (.markFileUploadedWithChecksum checksum) →
        t.calls[i]? = some (.done file) →
        ∃ x ∈ tr, ∃ fault st, x.event = .resume i fault ∧ nextStatement x.pre i = some st ∧
          HasChecksum (trim checksum) (perform fault st x.pre.db).1) ∧
      ∀ x ∈ tr, ∀ checksum, checksum ≠ "" → HasChecksum checksum x.pre.db →
        ∃ f, t.db = some f ∧ f.checksumSha256 = checksum := by
  refine ⟨?_, ?_, ?_⟩
  · intro i j checksum checksum' file file' hi hj hdone hdone'
    obtain ⟨f, hf, _, hsum⟩ := confirmation_settled hrun hi hdone
    obtain ⟨f', hf', _, hsum'⟩ := confirmation_settled hrun hj hdone'
    rw [hf] at hf'
    cases hf'
    exact hsum.symm.trans hsum'
  · intro i checksum file hbegun hdone
    exact confirmation_seen hrun hbegun hdone
  · intro x hx checksum _ hhas
    obtain ⟨f, hf, _, hsum⟩ := hhas.settled.later (settles_later hrun x hx)
    exact ⟨f, hf, hsum⟩

end Runs

def sampleFile : FileObject where
  id := 1
  folderId := none
  originalFilename := "a.txt"
  contentType := "text/plain"
  byteSize := 3
  checksumSha256 := ""
  status := .pending

def sampleChecksum : String := String.ofList (List.replicate 64 'a')

/-- Two confirmations beside each other, the second with white space around its checksum. -/
def sampleTurns : List (Turn Request (Option AppError)) :=
  [.begin (.markFileUploadedWithChecksum sampleChecksum),
    .begin (.markFileUploadedWithChecksum (" " ++ sampleChecksum)), .resume 0 none, .resume 1 none,
    .resume 0 none, .resume 1 none, .resume 0 none, .resume 1 none, .resume 1 none]

theorem confirmations_agree_beside :
    ∃ tr t, exec (serve perform (start 1)) (⟨some sampleFile, []⟩ : Server) sampleTurns =
        some (tr, t) ∧
      ∀ x ∈ tr, ∀ checksum, checksum ≠ "" → HasChecksum checksum x.pre.db →
        ∃ f, t.db = some f ∧ f.checksumSha256 = checksum := by
  obtain ⟨r, hr⟩ : ∃ r, exec (serve perform (start 1)) (⟨some sampleFile, []⟩ : Server)
      sampleTurns = some r := Option.isSome_iff_exists.mp (by decide +kernel)
  exact ⟨r.1, r.2, hr, (confirmations_agree 1 (some sampleFile) r.1 r.2 (run_of_exec hr)).2.2⟩

/-- Both confirmations return, with two texts for one checksum; the second is not what is stored. -/
theorem padded_checksum_confirmed :
    ∃ tr t, exec (serve perform (start 1)) (⟨some sampleFile, []⟩ : Server) sampleTurns =
        some (tr, t) ∧
      ((t.calls[0]?).bind Call.result).isSome = true ∧
      ((t.calls[1]?).bind Call.result).isSome = true ∧
      sampleChecksum ≠ " " ++ sampleChecksum ∧
      (tr.all fun x => x.pre.db.all fun f => f.checksumSha256 != " " ++ sampleChecksum) = true ∧
      t.db = some { sampleFile with status := .uploaded, checksumSha256 := sampleChecksum } := by
  have hrun : (exec (serve perform (start 1)) (⟨some sampleFile, []⟩ : Server) sampleTurns).map
      (fun r => (((r.2.calls[0]?).bind Call.result).isSome, ((r.2.calls[1]?).bind Call.result).isSome,
        (r.1.all fun x => x.pre.db.all fun f => f.checksumSha256 != " " ++ sampleChecksum), r.2.db)) =
      some (true, true, true,
        some { sampleFile with status := .uploaded, checksumSha256 := sampleChecksum }) := by
    decide +kernel
  obtain ⟨r, hr, heq⟩ := Option.map_eq_some_iff.mp hrun
  simp only [Prod.mk.injEq] at heq
  exact ⟨r.1, r.2, hr, heq.1, heq.2.1, by decide +kernel, heq.2.2.1, heq.2.2.2⟩

end Confirmation
end Files
end Yuance
