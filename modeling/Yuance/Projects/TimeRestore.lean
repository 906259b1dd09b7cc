import Yuance.Projects.TimeLog

/-!
# Yuance.Projects.TimeRestore

Rolling recorded changes back. A restore checks that the record was not restored before, changes the
table and appends the record that the check looks for, each in a statement of its own.

* `Progress`, `restoring`: how far a restore has come.
* `OneAtATime`: a restore checks a record only where no other restore of it is under way.
* `Records`: the change of the table that a record is about.
-/

namespace Yuance
namespace Projects
namespace TimeAllocations

open Lib Platform

/-! ## How far a restore has come -/

inductive Progress where
  /-- A call that restores nothing. -/
  | other
  /-- It has not checked the record. -/
  | fresh (recordId : Int)
  /-- The record was not restored when it checked. -/
  | passed (recordId : Int)
  /-- It has changed the table. -/
  | changed (recordId : Int)
  /-- It has recorded the change. -/
  | recorded (recordId : Int)
  /-- It has failed before it changed anything. -/
  | ended
  deriving DecidableEq, Repr

def Progress.next (q : Progress) (s : Statement) (answer : Except AppError s.Answer) : Progress :=
  match q, s, answer with
  | .fresh _, .changeRecordMeta _, .ok (some record) => .fresh record.recordId
  | .fresh recordId, .restoredCount _, .ok count => if count = 0 then .passed recordId else .ended
  | .fresh recordId, _, .ok _ => .fresh recordId
  | .fresh _, _, .error _ => .ended
  | .passed recordId, .insert .., .ok _ => .changed recordId
  | .passed recordId, .update .., .ok _ => .changed recordId
  | .passed recordId, .delete _, .ok _ => .changed recordId
  | .passed recordId, _, .ok _ => .passed recordId
  | .passed _, _, .error _ => .ended
  | .changed recordId, .record _, .ok _ => .recorded recordId
  | q, _, _ => q

def Progress.allows : Progress → Statement → Prop
  | other, _ => True
  | fresh recordId, s => s = .changeRecordMeta recordId ∨ s = .restoredCount recordId
  | passed _, s => (∀ a, s ≠ .record a) ∧ ∀ r, s ≠ .restoredCount r
  | changed recordId, s => (∃ id, s = .allocation id) ∨
      ∃ a, s = .record a ∧ a.action = .restored ∧ a.metadata.sourceActivityId = some recordId
  | recorded _, _ => False
  | ended, _ => False

def restoring : Guide Statement Statement.Answer AppError Request Progress where
  begin := fun request =>
    match request with
    | .restore _ recordId => .fresh recordId
    | _ => .other
  next := Progress.next
  allows := Progress.allows
  fails := fun _ => True
  returns := fun q => q = .other ∨ ∃ recordId, q = .recorded recordId

section Walking

variable {q : Progress} {recordId : Int}

theorem query_progress {s : Statement} (hallows : q.allows s) :
    Walks restoring (fun a q' => q' = q.next s (.ok a)) (query s) q :=
  ⟨hallows, fun _ => trivial, fun _ => rfl⟩

theorem check_progress {α : Type} {x : Except AppError α} :
    Walks restoring (fun _ q' => q' = q) (Call.ofExcept x : Task α) q :=
  walks_check trivial fun _ _ => rfl

/-- A read of a restore that has checked. -/
theorem read_progress {s : Statement} (hallows : q.allows s)
    (h : ∀ a, q.next s (.ok a) = q) : Walks restoring (fun _ q' => q' = q) (query s) q :=
  ⟨hallows, fun _ => trivial, h⟩

theorem getTimeAllocation_progress (id : Int) (hallows : q.allows (.allocation id))
    (h : ∀ a, q.next (.allocation id) (.ok a) = q) :
    Walks restoring (fun _ q' => q' = q) (getTimeAllocation id) q := by
  refine walks_bind check_progress ?_
  rintro _ _ rfl
  refine walks_bind (read_progress hallows h) ?_
  rintro row _ rfl
  exact walks_okOr (fun _ => trivial) fun _ _ => rfl

theorem resolveActiveUserId_progress (username : String) :
    Walks restoring (fun _ q' => q' = .passed recordId) (resolveActiveUserId username)
      (.passed recordId) := by
  refine walks_bind check_progress ?_
  rintro username _ rfl
  refine walks_bind (read_progress (s := .activeUser username) ⟨by simp, by simp⟩ fun _ => rfl) ?_
  rintro userId _ rfl
  exact walks_okOr (fun _ => trivial) fun _ _ => rfl

/-- The record of a restore. -/
theorem record_progress {a : NewActivity} (haction : a.action = .restored)
    (hsource : a.metadata.sourceActivityId = some recordId) :
    Walks restoring (fun _ q' => q' = .recorded recordId) (insertTimeAllocationActivity a)
      (.changed recordId) :=
  ⟨.inr ⟨a, rfl, haction, hsource⟩, fun _ => trivial, fun _ => rfl⟩

theorem restoreCreated_progress (actorUserId : Int) (record : TimeAllocationChangeRecordMeta) :
    Walks restoring (fun _ q' => q' = .recorded record.recordId) (restoreCreated actorUserId record)
      (.passed record.recordId) := by
  refine walks_bind (getTimeAllocation_progress _ ⟨by simp, by simp⟩ fun _ => rfl) ?_
  rintro before _ rfl
  refine walks_bind (query_progress (s := .delete record.allocationId) ⟨by simp, by simp⟩) ?_
  rintro _ _ rfl
  refine walks_bind (record_progress rfl rfl) ?_
  rintro _ _ rfl
  exact walks_done rfl

theorem restoreUpdated_progress (actorUserId : Int) (record : TimeAllocationChangeRecordMeta) :
    Walks restoring (fun _ q' => q' = .recorded record.recordId) (restoreUpdated actorUserId record)
      (.passed record.recordId) := by
  refine walks_bind (getTimeAllocation_progress _ ⟨by simp, by simp⟩ fun _ => rfl) ?_
  rintro before _ rfl
  refine walks_bind check_progress ?_
  rintro input _ rfl
  refine walks_bind (resolveActiveUserId_progress input.username) ?_
  rintro userId _ rfl
  refine walks_bind (query_progress (s := .update record.allocationId userId input)
    ⟨by simp, by simp⟩) ?_
  rintro _ _ rfl
  refine walks_bind (getTimeAllocation_progress _ (.inl ⟨_, rfl⟩) fun _ => rfl) ?_
  rintro after _ rfl
  refine walks_bind (record_progress rfl rfl) ?_
  rintro _ _ rfl
  exact walks_done rfl

theorem restoreDeleted_progress (actorUserId : Int) (record : TimeAllocationChangeRecordMeta) :
    Walks restoring (fun _ q' => q' = .recorded record.recordId) (restoreDeleted actorUserId record)
      (.passed record.recordId) := by
  refine walks_bind check_progress ?_
  rintro input _ rfl
  refine walks_bind (resolveActiveUserId_progress input.username) ?_
  rintro userId _ rfl
  refine walks_bind (query_progress (s := .insert record.projectId userId input actorUserId)
    ⟨by simp, by simp⟩) ?_
  rintro allocationId _ rfl
  refine walks_bind (getTimeAllocation_progress _ (.inl ⟨_, rfl⟩) fun _ => rfl) ?_
  rintro after _ rfl
  refine walks_bind (record_progress rfl rfl) ?_
  rintro _ _ rfl
  exact walks_done rfl

theorem restore_progress (actorUserId : Int) (record : TimeAllocationChangeRecordMeta) :
    Walks restoring (fun _ q' => q' = .recorded record.recordId)
      (restoreTimeAllocationFromRecord actorUserId record) (.fresh record.recordId) := by
  refine walks_bind check_progress ?_
  rintro _ _ rfl
  refine walks_bind (query_progress (s := .restoredCount record.recordId) (.inr rfl)) ?_
  rintro alreadyRestored _ rfl
  refine walks_bind (R := fun _ q' => q' = .passed record.recordId) (walks_rejectIf trivial ?_) ?_
  · intro hnone
    change (if alreadyRestored = 0 then Progress.passed record.recordId else .ended) = _
    rw [if_pos (Nat.eq_zero_of_not_pos hnone)]
  rintro _ _ rfl
  cases haction : record.action with
  | created => exact restoreCreated_progress actorUserId record
  | updated => exact restoreUpdated_progress actorUserId record
  | deleted => exact restoreDeleted_progress actorUserId record
  | restored => exact walks_fail trivial

/-- The other calls. -/
theorem other_progress {α : Type} (p : Task α) :
    Walks restoring (fun _ q' => q' = .other) p .other := by
  constructor
  induction p with
  | done a => rfl
  | fail e => trivial
  | ask s k ih =>
    have hnext : ∀ answer, Progress.next .other s answer = .other := by
      intro answer
      cases s <;> rfl
    refine ⟨trivial, fun _ => trivial, fun a => ?_⟩
    change WalksAll restoring _ (k a) (Progress.next .other s (.ok a))
    rw [hnext]
    exact ih a

theorem start_progress (request : Request) :
    Walks restoring (fun _ q => restoring.returns q) (start request) (restoring.begin request) := by
  have other : ∀ {α : Type} (p : Task α) (f : α → Task (Option TimeAllocationDetail)),
      (∀ a, ∃ b, f a = pure b) → Walks restoring (fun _ q => restoring.returns q) (p >>= f) .other := by
    intro α p f hf
    refine walks_bind (other_progress p) ?_
    rintro a _ rfl
    obtain ⟨b, hb⟩ := hf a
    rw [hb]
    exact walks_done (.inl rfl)
  cases request with
  | create actorUserId projectKey input allowNonMemberTarget => exact other _ _ fun _ => ⟨_, rfl⟩
  | update actorUserId projectKey allocationId input allowNonMemberTarget =>
    exact other _ _ fun _ => ⟨_, rfl⟩
  | delete actorUserId projectKey allocationId => exact other _ _ fun _ => ⟨_, rfl⟩
  | restore actorUserId recordId =>
    change Walks restoring _ (restoreTimeAllocationChange actorUserId recordId) (.fresh recordId)
    refine walks_bind (query_progress (s := .changeRecordMeta recordId) (.inl rfl)) ?_
    rintro record _ rfl
    cases record with
    | none => exact walks_bind (R := fun _ _ => False) (walks_fail trivial) fun _ _ h => h.elim
    | some record =>
      refine walks_bind (R := fun a q => a = record ∧ q = .fresh record.recordId)
        (walks_done ⟨rfl, rfl⟩) ?_
      rintro record _ ⟨rfl, rfl⟩
      exact walks_mono (restore_progress actorUserId record) fun _ _ h => .inr ⟨_, h⟩

end Walking

/-! ## A record is restored once -/

/-- The call restores the record, or did before it failed. -/
def Progress.isAbout (recordId : Int) : Progress → Bool
  | other => false
  | fresh id => id == recordId
  | passed id => id == recordId
  | changed id => id == recordId
  | recorded id => id == recordId
  | ended => true

def Progress.hasChanged (recordId : Int) : Progress → Bool
  | changed id => id == recordId
  | recorded id => id == recordId
  | _ => false

/-- A restore makes its check of a record only where no other restore of it has changed the table
without recording it, or has checked and not ended. -/
def OneAtATime (qs : List Progress) (s : Server) : Turn Request Moment → Prop
  | .begin _ => True
  | .resume i _ => ∀ recordId, nextStatement s i = some (.restoredCount recordId) →
      qs[i]? = some (.fresh recordId) → ∀ (j : Nat) q, j ≠ i → qs[j]? = some q →
      q ≠ .changed recordId ∧ (q = .passed recordId → nextStatement s j = none)

/-- The step of the run in which a restore of the record changes the table. -/
def ChangesTable (tr : List (Entry Server (Turn Request Moment) Unit)) (k : Nat) (recordId : Int) :
    Prop :=
  ∃ x i m st actorUserId, tr[k]? = some x ∧ x.event = .resume i m ∧
    (begun (tr.take k))[i]? = some (.restore actorUserId recordId) ∧
    nextStatement x.pre i = some st ∧
    (perform m st x.pre.db).1.allocations ≠ x.pre.db.allocations

structure Once (recordId : Int) (tr : List (Entry Server (Turn Request Moment) Unit))
    (qs : List Progress) (s : Server) : Prop where
  length : (begun tr).length = qs.length
  about : ∀ (i : Nat) actorUserId, (begun tr)[i]? = some (.restore actorUserId recordId) →
    ∃ q, qs[i]? = some q ∧ q.isAbout recordId = true
  logged : ∀ i : Nat, qs[i]? = some (.recorded recordId) → 0 < s.db.restoredCount recordId
  single : ∀ (i j : Nat) q q', qs[i]? = some q → qs[j]? = some q' → q.hasChanged recordId = true →
    q'.hasChanged recordId = true → i = j
  alone : ∀ i : Nat, qs[i]? = some (.passed recordId) → nextStatement s i ≠ none →
    ∀ (j : Nat) q, j ≠ i → qs[j]? = some q →
    q.hasChanged recordId = false ∧ (q = .passed recordId → nextStatement s j = none)
  changes : ∀ k, ChangesTable tr k recordId →
    ∃ (i : Nat) (q : Progress), qs[i]? = some q ∧ q.hasChanged recordId = true
  once : ∀ k l, ChangesTable tr k recordId → ChangesTable tr l recordId → k = l

section Steps

variable {db : Db} {m : Moment} {st : Statement} {recordId : Int} {q : Progress}

/-- The statements that change the table. -/
theorem allocations_changed (h : (perform m st db).1.allocations ≠ db.allocations) :
    (∃ a, (perform m st db).2 = .ok a) ∧
      ((∃ projectId userId input createdBy, st = .insert projectId userId input createdBy) ∨
        (∃ id userId input, st = .update id userId input) ∨ ∃ id, st = .delete id) := by
  rcases perform_cases m st db with ⟨e, heq⟩ | heq
  · rw [heq] at h
    exact absurd rfl h
  rw [heq] at h ⊢
  cases st with
  | insert projectId userId input createdBy =>
    refine ⟨?_, .inl ⟨_, _, _, _, rfl⟩⟩
    rcases insert_cases db m.now projectId userId input createdBy with ⟨e, hcase⟩ | ⟨-, hcase⟩
    · rw [show execute m.now db (.insert projectId userId input createdBy) = _ from hcase] at h
      exact absurd rfl h
    · rw [show execute m.now db (.insert projectId userId input createdBy) = _ from hcase]
      exact ⟨_, rfl⟩
  | update id userId input =>
    refine ⟨?_, .inr (.inl ⟨_, _, _, rfl⟩)⟩
    rcases update_cases db m.now id userId input with ⟨e, hcase⟩ | ⟨-, hcase⟩
    · rw [show execute m.now db (.update id userId input) = _ from hcase] at h
      exact absurd rfl h
    · rw [show execute m.now db (.update id userId input) = _ from hcase]
      exact ⟨_, rfl⟩
  | delete id => exact ⟨⟨_, rfl⟩, .inr (.inr ⟨_, rfl⟩)⟩
  | record a =>
    rcases record_cases db a with ⟨e, hcase⟩ | hcase
    · rw [show execute m.now db (.record a) = _ from hcase] at h
      exact absurd rfl h
    · rw [show execute m.now db (.record a) = _ from hcase] at h
      exact absurd rfl h
  | _ => exact absurd rfl h

/-- The records only grow. -/
theorem activities_grow (m : Moment) (st : Statement) (db : Db) :
    db.activities <+: (perform m st db).1.activities := by
  rcases perform_cases m st db with ⟨e, heq⟩ | heq
  · rw [heq]
  rw [heq]
  cases st with
  | insert projectId userId input createdBy =>
    rcases insert_cases db m.now projectId userId input createdBy with ⟨e, hcase⟩ | ⟨-, hcase⟩
    · rw [show execute m.now db (.insert projectId userId input createdBy) = _ from hcase]
    · rw [show execute m.now db (.insert projectId userId input createdBy) = _ from hcase]
      exact List.prefix_rfl
  | update id userId input =>
    rcases update_cases db m.now id userId input with ⟨e, hcase⟩ | ⟨-, hcase⟩
    · rw [show execute m.now db (.update id userId input) = _ from hcase]
    · rw [show execute m.now db (.update id userId input) = _ from hcase]
      exact List.prefix_rfl
  | record a =>
    rcases record_cases db a with ⟨e, hcase⟩ | hcase
    · rw [show execute m.now db (.record a) = _ from hcase]
    · rw [show execute m.now db (.record a) = _ from hcase]
      exact List.prefix_append _ _
  | _ => exact List.prefix_rfl

theorem restoredCount_mono (m : Moment) (st : Statement) (db : Db) :
    db.restoredCount recordId ≤ (perform m st db).1.restoredCount recordId :=
  ((activities_grow m st db).filter _).length_le

theorem restoredCount_record {a : NewActivity} {u : Unit}
    (hok : (perform m (.record a) db).2 = .ok u) (haction : a.action = .restored)
    (hsource : a.metadata.sourceActivityId = some recordId) :
    0 < (perform m (.record a) db).1.restoredCount recordId := by
  rcases perform_cases m (.record a) db with ⟨e, heq⟩ | heq
  · rw [heq] at hok
    cases hok
  rw [heq] at hok ⊢
  rcases record_cases db a with ⟨e, hcase⟩ | hcase
  · rw [show execute m.now db (.record a) = _ from hcase] at hok
    cases hok
  rw [show execute m.now db (.record a) = _ from hcase]
  unfold Db.restoredCount logged
  rw [List.filter_append, List.length_append]
  have hlast : ([{ a with id := db.nextActivity }] : List ActivityRow).filter (fun r =>
      r.action == .restored && r.metadata.sourceActivityId == some recordId) =
      [{ a with id := db.nextActivity }] := by
    simp [haction, hsource]
  rw [hlast]
  simp

/-! The phases behind a statement, by the phase before it. -/

theorem next_fixed (hq : q = .other ∨ q = .recorded recordId ∨ q = .ended)
    (answer : Except AppError st.Answer) : q.next st answer = q := by
  rcases hq with rfl | rfl | rfl <;> cases st <;> rfl

theorem next_fresh (answer : Except AppError st.Answer) :
    (Progress.fresh recordId).next st answer = .ended ∨
      (∃ id, (Progress.fresh recordId).next st answer = .fresh id) ∨
      (Progress.fresh recordId).next st answer = .passed recordId := by
  cases answer with
  | error e =>
    left
    cases st <;> rfl
  | ok a =>
    cases st with
    | changeRecordMeta id =>
      cases a with
      | none => exact .inr (.inl ⟨_, rfl⟩)
      | some record => exact .inr (.inl ⟨_, rfl⟩)
    | restoredCount id =>
      change (if a = 0 then Progress.passed recordId else .ended) = .ended ∨
        (∃ id, (if a = 0 then Progress.passed recordId else .ended) = .fresh id) ∨
        (if a = 0 then Progress.passed recordId else .ended) = .passed recordId
      split
      · exact .inr (.inr rfl)
      · exact .inl rfl
    | _ => exact .inr (.inl ⟨_, rfl⟩)

theorem next_passed (answer : Except AppError st.Answer) :
    (Progress.passed recordId).next st answer = .ended ∨
      (Progress.passed recordId).next st answer = .passed recordId ∨
      (Progress.passed recordId).next st answer = .changed recordId := by
  cases answer with
  | error e =>
    left
    cases st <;> rfl
  | ok a =>
    right
    cases st with
    | insert projectId userId input createdBy => exact .inr rfl
    | update id userId input => exact .inr rfl
    | delete id => exact .inr rfl
    | _ => exact .inl rfl

theorem next_changed (answer : Except AppError st.Answer) :
    (Progress.changed recordId).next st answer = .changed recordId ∨
      (Progress.changed recordId).next st answer = .recorded recordId ∧
        (∃ a, st = .record a) ∧ ∃ u, answer = .ok u := by
  cases answer with
  | error e =>
    left
    cases st <;> rfl
  | ok a =>
    cases st with
    | record activity => exact .inr ⟨rfl, ⟨_, rfl⟩, _, rfl⟩
    | _ => exact .inl rfl

theorem hasChanged_next {answer : Except AppError st.Answer} {id : Int}
    (h : (q.next st answer).hasChanged id = true) : q.hasChanged id = true ∨ q = .passed id := by
  cases q with
  | other =>
    rw [@next_fixed _ 0 _ (.inl rfl)] at h
    cases h
  | ended =>
    rw [@next_fixed _ 0 _ (.inr (.inr rfl))] at h
    cases h
  | recorded recordId =>
    rw [next_fixed (.inr (.inl rfl))] at h
    exact .inl h
  | fresh recordId =>
    rcases @next_fresh _ recordId answer with heq | ⟨_, heq⟩ | heq <;> rw [heq] at h <;>
      cases h
  | passed recordId =>
    rcases @next_passed _ recordId answer with heq | heq | heq <;> rw [heq] at h
    · cases h
    · cases h
    · rw [beq_iff_eq.mp h]
      exact .inr rfl
  | changed recordId =>
    left
    rcases @next_changed _ recordId answer with heq | ⟨heq, -⟩ <;> rw [heq] at h
    · exact h
    · exact h

theorem hasChanged_keeps {answer : Except AppError st.Answer} {id : Int}
    (h : q.hasChanged id = true) : (q.next st answer).hasChanged id = true := by
  cases q with
  | recorded recordId =>
    rw [next_fixed (.inr (.inl rfl))]
    exact h
  | changed recordId =>
    rcases @next_changed _ recordId answer with heq | ⟨heq, -⟩ <;> rw [heq]
    · exact h
    · exact h
  | _ => cases h

theorem passed_next {id : Int} (h : q.next st (perform m st db).2 = .passed id)
    (hallows : q.allows st) :
    q = .passed id ∨ (q = .fresh id ∧ st = .restoredCount id ∧ db.restoredCount id = 0) := by
  cases q with
  | fresh recordId =>
    rcases hallows with rfl | rfl
    · cases hanswer : (perform m (.changeRecordMeta recordId) db).2 with
      | error e =>
        rw [hanswer] at h
        cases h
      | ok record =>
        rw [hanswer] at h
        cases record with
        | none => cases h
        | some record => cases h
    · rcases perform_cases m (.restoredCount recordId) db with ⟨e, heq⟩ | heq
      · rw [heq] at h
        cases h
      · rw [heq] at h
        change (if db.restoredCount recordId = 0 then Progress.passed recordId else .ended) =
          .passed id at h
        split at h
        · rename_i hzero
          cases h
          exact .inr ⟨rfl, rfl, hzero⟩
        · cases h
  | passed recordId =>
    rcases @next_passed _ recordId (perform m st db).2 with heq | heq | heq <;>
      rw [heq] at h
    · cases h
    · exact .inl h
    · cases h
  | other =>
    rw [@next_fixed _ 0 _ (.inl rfl)] at h
    cases h
  | changed recordId =>
    rcases @next_changed _ recordId (perform m st db).2 with heq | ⟨heq, -⟩ <;>
      rw [heq] at h <;> cases h
  | _ => exact False.elim hallows

theorem recorded_next {id : Int} (h : q.next st (perform m st db).2 = .recorded id)
    (hallows : q.allows st) : 0 < (perform m st db).1.restoredCount id := by
  cases q with
  | changed recordId =>
    rcases @next_changed _ recordId (perform m st db).2 with
      heq | ⟨heq, ⟨a, rfl⟩, u, hok⟩ <;> rw [heq] at h
    · cases h
    · cases h
      rcases hallows with ⟨_, hread⟩ | ⟨a', ha', haction, hsource⟩
      · cases hread
      · cases ha'
        exact restoredCount_record hok haction hsource
  | fresh recordId =>
    rcases @next_fresh _ recordId (perform m st db).2 with heq | ⟨_, heq⟩ | heq <;>
      rw [heq] at h <;> cases h
  | passed recordId =>
    rcases @next_passed _ recordId (perform m st db).2 with heq | heq | heq <;>
      rw [heq] at h <;> cases h
  | other =>
    rw [@next_fixed _ 0 _ (.inl rfl)] at h
    cases h
  | _ => exact False.elim hallows

/-- The record that is read is the one that was asked for. -/
theorem changeRecordMeta_id {record : TimeAllocationChangeRecordMeta}
    (h : db.changeRecordMeta recordId = some record) : record.recordId = recordId := by
  obtain ⟨a, ha, hmap⟩ := Option.bind_eq_some_iff.mp h
  obtain ⟨p, -, rfl⟩ := Option.map_eq_some_iff.mp hmap
  have hid := List.find?_some ha
  exact beq_iff_eq.mp hid

theorem isAbout_next {id : Int} (h : q.isAbout id = true) (hallows : q.allows st) :
    (q.next st (perform m st db).2).isAbout id = true := by
  cases q with
  | other => cases h
  | ended => exact False.elim hallows
  | recorded recordId => exact False.elim hallows
  | passed recordId =>
    rcases @next_passed _ recordId (perform m st db).2 with heq | heq | heq <;> rw [heq]
    · rfl
    · exact h
    · exact h
  | changed recordId =>
    rcases @next_changed _ recordId (perform m st db).2 with heq | ⟨heq, -⟩ <;> rw [heq]
    · exact h
    · exact h
  | fresh recordId =>
    obtain rfl := beq_iff_eq.mp h
    rcases hallows with rfl | rfl
    · rcases perform_cases m (.changeRecordMeta recordId) db with ⟨e, heq⟩ | heq
      · rw [heq]
        rfl
      · rw [heq]
        change (Progress.next (.fresh recordId) (.changeRecordMeta recordId)
          (.ok (db.changeRecordMeta recordId))).isAbout recordId = true
        cases hrecord : db.changeRecordMeta recordId with
        | none => exact h
        | some record => exact beq_iff_eq.mpr (changeRecordMeta_id hrecord)
    · rcases @next_fresh (.restoredCount recordId) recordId
        (perform m (.restoredCount recordId) db).2 with heq | ⟨id, heq⟩ | heq
      · rw [heq]
        rfl
      · cases hanswer : (perform m (.restoredCount recordId) db).2 with
        | error e => rfl
        | ok count =>
          change (if count = 0 then Progress.passed recordId else .ended).isAbout recordId = true
          split
          · exact h
          · rfl
      · rw [heq]
        exact h

/-- Only a restore that has checked changes the table. -/
theorem change_next {id : Int} (h : q.isAbout id = true) (hallows : q.allows st)
    (hchanged : (perform m st db).1.allocations ≠ db.allocations) :
    q = .passed id ∧ (q.next st (perform m st db).2).hasChanged id = true := by
  obtain ⟨⟨a, hok⟩, hwrites⟩ := allocations_changed hchanged
  rw [hok]
  cases q with
  | other => cases h
  | fresh recordId =>
    rcases hallows with rfl | rfl
    · rcases hwrites with ⟨_, _, _, _, hst⟩ | ⟨_, _, _, hst⟩ | ⟨_, hst⟩ <;> cases hst
    · rcases hwrites with ⟨_, _, _, _, hst⟩ | ⟨_, _, _, hst⟩ | ⟨_, hst⟩ <;> cases hst
  | passed recordId =>
    obtain rfl := beq_iff_eq.mp h
    refine ⟨rfl, ?_⟩
    rcases hwrites with ⟨_, _, _, _, rfl⟩ | ⟨_, _, _, rfl⟩ | ⟨_, rfl⟩
    · exact h
    · exact h
    · exact h
  | changed recordId =>
    rcases hallows with ⟨_, rfl⟩ | ⟨_, rfl, -⟩
    · rcases hwrites with ⟨_, _, _, _, hst⟩ | ⟨_, _, _, hst⟩ | ⟨_, hst⟩ <;> cases hst
    · rcases hwrites with ⟨_, _, _, _, hst⟩ | ⟨_, _, _, hst⟩ | ⟨_, hst⟩ <;> cases hst
  | _ => exact False.elim hallows

end Steps

section Runs

variable {recordId : Int} {tr : List (Entry Server (Turn Request Moment) Unit)} {qs : List Progress}
  {s : Server}

theorem changesTable_append {x : Entry Server (Turn Request Moment) Unit} {k : Nat}
    (h : ChangesTable (tr ++ [x]) k recordId) :
    ChangesTable tr k recordId ∨ (k = tr.length ∧ ∃ i m st actorUserId, x.event = .resume i m ∧
      (begun tr)[i]? = some (.restore actorUserId recordId) ∧ nextStatement x.pre i = some st ∧
      (perform m st x.pre.db).1.allocations ≠ x.pre.db.allocations) := by
  obtain ⟨y, i, m, st, actorUserId, hy, hevent, hbegun, hnext, hchanged⟩ := h
  by_cases hk : k < tr.length
  · rw [List.getElem?_append_left hk] at hy
    rw [List.take_append_of_le_length (Nat.le_of_lt hk)] at hbegun
    exact .inl ⟨y, i, m, st, actorUserId, hy, hevent, hbegun, hnext, hchanged⟩
  · have hle : tr.length ≤ k := Nat.le_of_not_lt hk
    rw [List.getElem?_append_right hle] at hy
    have hlt := (List.getElem?_eq_some_iff.mp hy).1
    have hlength : k = tr.length := by
      rw [List.length_singleton] at hlt
      omega
    obtain rfl := List.mem_singleton.mp (List.mem_of_getElem? hy)
    rw [hlength, List.take_left] at hbegun
    exact .inr ⟨hlength, i, m, st, actorUserId, hevent, hbegun, hnext, hchanged⟩

theorem begin_ne (request : Request) :
    (restoring.begin request).hasChanged recordId = false ∧
      restoring.begin request ≠ .passed recordId ∧ restoring.begin request ≠ .recorded recordId := by
  cases request <;> exact ⟨rfl, fun h => (by cases h), fun h => (by cases h)⟩

/-- A call comes in. -/
theorem Once.begin (h : Once recordId tr qs s) (hlength : qs.length = s.calls.length)
    (request : Request) :
    Once recordId (tr ++ [⟨s, .begin request, ()⟩]) (qs ++ [restoring.begin request])
      { s with calls := s.calls ++ [start request] } := by
  obtain ⟨hnot, hpassed, hrecorded⟩ := @begin_ne recordId request
  have hbegun : begun (tr ++ [⟨s, .begin request, ()⟩]) = begun tr ++ [request] := by
    simp [begun]
  -- the phases that matter are those of the calls before
  have old : ∀ {i : Nat} {q : Progress}, (qs ++ [restoring.begin request])[i]? = some q →
      q.hasChanged recordId = true → qs[i]? = some q := by
    intro i q hq hchanged
    rcases getElem?_concat hq with hold | ⟨-, rfl⟩
    · exact hold
    · rw [hnot] at hchanged
      cases hchanged
  have next : ∀ {i : Nat} {q : Progress}, qs[i]? = some q →
      nextStatement ({ s with calls := s.calls ++ [start request] } : Server) i =
        nextStatement s i := by
    intro i q hq
    have hi : i < s.calls.length := by
      rw [← hlength]
      exact (List.getElem?_eq_some_iff.mp hq).1
    unfold nextStatement
    rw [List.getElem?_append_left hi]
  have changes : ∀ k, ChangesTable (tr ++ [⟨s, .begin request, ()⟩]) k recordId →
      ChangesTable tr k recordId := by
    intro k hk
    rcases changesTable_append hk with hold | ⟨-, _, _, _, _, hevent, -⟩
    · exact hold
    · cases hevent
  refine ⟨?_, ?_, ?_, ?_, ?_, ?_, ?_⟩
  · rw [hbegun, List.length_append, List.length_append, h.length]
    rfl
  · intro i actorUserId hi
    rw [hbegun] at hi
    rcases getElem?_concat hi with hold | ⟨rfl, rfl⟩
    · obtain ⟨q, hq, habout⟩ := h.about i actorUserId hold
      refine ⟨q, ?_, habout⟩
      rw [List.getElem?_append_left (List.getElem?_eq_some_iff.mp hq).1]
      exact hq
    · refine ⟨.fresh recordId, ?_, beq_self_eq_true _⟩
      rw [h.length, List.getElem?_append_right (Nat.le_refl _), Nat.sub_self]
      rfl
  · intro i hi
    rcases getElem?_concat hi with hold | ⟨-, hnew⟩
    · exact h.logged i hold
    · exact absurd hnew hrecorded
  · intro i j q q' hq hq' hchanged hchanged'
    exact h.single i j q q' (old hq hchanged) (old hq' hchanged') hchanged hchanged'
  · intro i hi hrunning j q hji hq
    rcases getElem?_concat hi with hold | ⟨-, hnew⟩
    · rw [next hold] at hrunning
      rcases getElem?_concat hq with hqold | ⟨-, rfl⟩
      · obtain ⟨h1, h2⟩ := h.alone i hold hrunning j q hji hqold
        exact ⟨h1, fun hpass => (next hqold).trans (h2 hpass)⟩
      · exact ⟨hnot, fun hpass => absurd hpass hpassed⟩
    · exact absurd hnew hpassed
  · intro k hk
    obtain ⟨i, q, hq, hchanged⟩ := h.changes k (changes k hk)
    refine ⟨i, q, ?_, hchanged⟩
    rw [List.getElem?_append_left (List.getElem?_eq_some_iff.mp hq).1]
    exact hq
  · intro k l hk hl
    exact h.once k l (changes k hk) (changes l hl)

/-- A call makes its next statement. -/
theorem Once.resume (h : Once recordId tr qs s) {i : Nat} {m : Moment} {q : Progress}
    {st : Statement} {k : st.Answer → Task (Option TimeAllocationDetail)}
    (hget : s.calls[i]? = some (.ask st k)) (hq : qs[i]? = some q) (hallows : q.allows st)
    (hc : OneAtATime qs s (.resume i m)) :
    Once recordId (tr ++ [⟨s, .resume i m, ()⟩]) (qs.set i (q.next st (perform m st s.db).2))
      { db := (perform m st s.db).1, calls := s.calls.set i (answered k (perform m st s.db).2) } := by
  have hnext : nextStatement s i = some st := by rw [nextStatement, hget]
  have hrunning : nextStatement s i ≠ none := by
    rw [hnext]
    exact Option.some_ne_none st
  have hbegun : begun (tr ++ [⟨s, .resume i m, ()⟩]) = begun tr := by
    simp [begun]
  have hself : i < qs.length := (List.getElem?_eq_some_iff.mp hq).1
  have next : ∀ {j : Nat}, j ≠ i → nextStatement (⟨(perform m st s.db).1,
      s.calls.set i (answered k (perform m st s.db).2)⟩ : Server) j = nextStatement s j := by
    intro j hji
    unfold nextStatement
    rw [List.getElem?_set_ne fun h => hji h.symm]
  -- when the call changes the table, no other restore of the record has or is about to
  have first : q = .passed recordId → ∀ (j : Nat) p, qs[j]? = some p → p.hasChanged recordId = false := by
    rintro rfl j p hp
    by_cases hji : j = i
    · obtain rfl := hji
      rw [hq] at hp
      obtain rfl := Option.some.inj hp
      rfl
    · exact (h.alone i hq hrunning j p hji hp).1
  refine ⟨?_, ?_, ?_, ?_, ?_, ?_, ?_⟩
  · rw [hbegun, List.length_set]
    exact h.length
  · intro j actorUserId hj
    rw [hbegun] at hj
    obtain ⟨p, hp, habout⟩ := h.about j actorUserId hj
    by_cases hji : j = i
    · obtain rfl := hji
      rw [hq] at hp
      obtain rfl := Option.some.inj hp
      exact ⟨_, List.getElem?_set_self hself, isAbout_next habout hallows⟩
    · refine ⟨p, ?_, habout⟩
      rw [List.getElem?_set_ne fun h => hji h.symm]
      exact hp
  · intro j hj
    rcases set_cases hj with ⟨-, hnew⟩ | ⟨-, hold⟩
    · exact recorded_next hnew.symm hallows
    · exact Nat.lt_of_lt_of_le (h.logged j hold) (restoredCount_mono m st s.db)
  · intro j l p p' hp hp' hchanged hchanged'
    rcases set_cases hp with ⟨rfl, rfl⟩ | ⟨hji, hpold⟩
    · rcases set_cases hp' with ⟨rfl, rfl⟩ | ⟨hli, hpold'⟩
      · rfl
      · rcases hasChanged_next hchanged with hwas | hpass
        · exact h.single _ _ _ _ hq hpold' hwas hchanged'
        · rw [first hpass l p' hpold'] at hchanged'
          cases hchanged'
    · rcases set_cases hp' with ⟨rfl, rfl⟩ | ⟨hli, hpold'⟩
      · rcases hasChanged_next hchanged' with hwas | hpass
        · exact h.single _ _ _ _ hpold hq hchanged hwas
        · rw [first hpass j p hpold] at hchanged
          cases hchanged
      · exact h.single _ _ _ _ hpold hpold' hchanged hchanged'
  · intro j hj hstill l p hlj hp
    rcases set_cases hj with ⟨rfl, hnew⟩ | ⟨hji, hold⟩
    · rcases set_cases hp with ⟨hli, -⟩ | ⟨hli, hpold⟩
      · exact absurd hli hlj
      rw [next hli]
      rcases passed_next hnew.symm hallows with rfl | ⟨rfl, rfl, hzero⟩
      · exact h.alone _ hq hrunning l p hli hpold
      · -- the check found no restore of the record
        obtain ⟨hchanged, hpassed⟩ := hc recordId hnext hq l p hli hpold
        refine ⟨?_, hpassed⟩
        rw [← Bool.not_eq_true]
        intro hhas
        cases p with
        | changed id => exact hchanged (congrArg _ (beq_iff_eq.mp hhas))
        | recorded id =>
          obtain rfl := beq_iff_eq.mp hhas
          have hlogged := h.logged l hpold
          omega
        | _ => cases hhas
    · rw [next hji] at hstill
      rcases set_cases hp with ⟨rfl, rfl⟩ | ⟨hli, hpold⟩
      · obtain ⟨hnot, hnone⟩ := h.alone j hold hstill l q hlj hq
        have hne : q ≠ .passed recordId := fun hpass => hrunning (hnone hpass)
        constructor
        · rw [← Bool.not_eq_true]
          intro hhas
          rcases hasChanged_next hhas with hwas | hpass
          · rw [hnot] at hwas
            cases hwas
          · exact hne hpass
        · intro hpass
          rcases passed_next hpass hallows with hpass' | ⟨rfl, rfl, -⟩
          · exact absurd hpass' hne
          · exact absurd ((hc recordId hnext hq j _ hji hold).2 rfl) hstill
      · rw [next hli]
        exact h.alone j hold hstill l p hlj hpold
  · intro n hn
    rcases changesTable_append hn with hold | ⟨-, i', m', st', actorUserId, hevent, hmade, hst, hchanged⟩
    · obtain ⟨j, p, hp, hhas⟩ := h.changes n hold
      by_cases hji : j = i
      · obtain rfl := hji
        rw [hq] at hp
        obtain rfl := Option.some.inj hp
        exact ⟨_, _, List.getElem?_set_self hself, hasChanged_keeps hhas⟩
      · refine ⟨j, p, ?_, hhas⟩
        rw [List.getElem?_set_ne fun h => hji h.symm]
        exact hp
    · cases hevent
      rw [hnext] at hst
      obtain rfl := Option.some.inj hst
      obtain ⟨p, hp, habout⟩ := h.about i actorUserId hmade
      rw [hq] at hp
      obtain rfl := Option.some.inj hp
      exact ⟨i, _, List.getElem?_set_self hself, (change_next habout hallows hchanged).2⟩
  · -- a change that was made before is not made again
    have again : ∀ n, ChangesTable tr n recordId → ∀ i' m' st' actorUserId,
        (Turn.resume i m : Turn Request Moment) = .resume i' m' →
        (begun tr)[i']? = some (.restore actorUserId recordId) → nextStatement s i' = some st' →
        (perform m' st' s.db).1.allocations = s.db.allocations := by
      intro n hn i' m' st' actorUserId hevent hmade hst
      by_contra hchanged
      cases hevent
      rw [hnext] at hst
      obtain rfl := Option.some.inj hst
      obtain ⟨p, hp, habout⟩ := h.about i actorUserId hmade
      rw [hq] at hp
      obtain rfl := Option.some.inj hp
      obtain ⟨j, p', hp', hhas⟩ := h.changes n hn
      rw [first (change_next habout hallows hchanged).1 j p' hp'] at hhas
      cases hhas
    intro n l hn hl
    rcases changesTable_append hn with hold | ⟨hlen, i', m', st', actor, hevent, hmade, hst, hchanged⟩
    · rcases changesTable_append hl with
        hold' | ⟨-, i', m', st', actor, hevent, hmade, hst, hchanged⟩
      · exact h.once n l hold hold'
      · exact absurd (again n hold i' m' st' actor hevent hmade hst) hchanged
    · rcases changesTable_append hl with hold' | ⟨hlen', -⟩
      · exact absurd (again l hold' i' m' st' actor hevent hmade hst) hchanged
      · exact hlen.trans hlen'.symm

end Runs

end TimeAllocations
end Projects
end Yuance
