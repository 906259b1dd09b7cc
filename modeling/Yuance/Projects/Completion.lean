import Yuance.Projects.History

/-!
# Yuance.Projects.Completion

The time of completion of a work item. A status is written with the time of its statement, or without
one, by what the status is alone.

* `setWorkItemCycle`, `WorkRequest`: the calls on work items, with the one that sets the cycle.
* `lastChange`: when the status of a work item last changed in a run.
* `Fresh`: no completed item is given the status that it has, at another time than it was completed.
-/

namespace Yuance
namespace Projects

open Lib Platform

def setWorkItemCycle (actorUserId : Int) (itemKey : String) (cycleId : Option Int) :
    Task WorkItem := do
  let row ← getItem itemKey
  Call.ofExcept (ensureProjectAcceptsWrites row.project.status)
  let cycle ← resolveProjectCycle row.item.projectId cycleId
  if row.item.cycleId = cycle.map (·.id) then getWorkItemDetail itemKey itemMissing
  else do
    query (.writeItems actorUserId [
      { read := row.item
        change := .batchCycle (cycle.map (·.id))
        activities := [itemActivity actorUserId row.item
          (.cycleChanged row.item.cycleId (cycle.map (·.id)))] }])
    getWorkItemDetail itemKey itemMissing

inductive WorkRequest where
  | request (request : Request)
  | createWorkItemWithCycle (actorUserId : Int) (input : CreateWorkItemInput) (cycleId : Option Int)
  | setWorkItemCycle (actorUserId : Int) (itemKey : String) (cycleId : Option Int)

def startWork : WorkRequest → Task Response
  | .request request => start request
  | .createWorkItemWithCycle actorUserId input cycleId => do
    let item ← createWorkItemWithCycle actorUserId input cycleId
    pure (.item item)
  | .setWorkItemCycle actorUserId itemKey cycleId => do
    let item ← setWorkItemCycle actorUserId itemKey cycleId
    pure (.item item)

/-- `status IN ('done', 'closed', 'resolved', 'verified')`. -/
def WorkItemStatus.isCompleted (status : WorkItemStatus) : Bool :=
  [WorkItemStatus.done, .closed, .resolved, .verified].contains status

theorem completion_eq (now : Int) (status : WorkItemStatus) :
    completion now status = if status.isCompleted then some now else none := rfl

/-- A change writes the time of the statement beside the status, or leaves both alone. -/
theorem apply_completedAt (now : Int) (change : ItemChange) (wi : WorkItem) :
    (change.apply now wi).completedAt =
      match change.status? with
      | some status => completion now status
      | none => wi.completedAt := by
  cases change <;> rfl

/-! ## One statement -/

section Rows

variable {db : Db} {now : Int} {writes : List ItemWrite} {r : WorkItem}

/-- No write gives the row, which is completed, the status that it has, at another time. -/
def FreshWrites (now : Int) (writes : List ItemWrite) (r : WorkItem) : Prop :=
  ∀ w ∈ writes, w.read.id = r.id → ∀ status, w.change.status? = some status →
    status.isCompleted = true → r.status = status → r.completedAt = some now

/-- What the writes make of a row: they leave its status and its time alone, or one of them wrote
both. -/
theorem rewritten_completedAt :
    ((rewritten now writes r).status = r.status ∧
        (rewritten now writes r).completedAt = r.completedAt) ∨
      ∃ w ∈ writes, w.read.id = r.id ∧
        w.change.status? = some (rewritten now writes r).status ∧
        (rewritten now writes r).completedAt = completion now (rewritten now writes r).status := by
  have hinv := @rewritten_induction now (fun r' => r'.id = r.id ∧
    ((r'.status = r.status ∧ r'.completedAt = r.completedAt) ∨
      ∃ w ∈ writes, w.read.id = r.id ∧ w.change.status? = some r'.status ∧
        r'.completedAt = completion now r'.status)) writes r ⟨rfl, .inl ⟨rfl, rfl⟩⟩ ?_
  · exact hinv.2
  intro w hw r' ⟨hid, hrow⟩ hread
  refine ⟨by rw [apply_id, hid], ?_⟩
  rw [apply_status, apply_completedAt]
  cases hs : w.change.status? with
  | none => exact hrow
  | some status => exact .inr ⟨w, hw, hread.symm.trans hid, hs, rfl⟩

/-- The time of completion is that of the last change of the status. -/
theorem rewritten_time (hr : r.completedAt.isSome = r.status.isCompleted)
    (hfresh : FreshWrites now writes r) :
    ((rewritten now writes r).status = r.status →
        (rewritten now writes r).completedAt = r.completedAt) ∧
      ((rewritten now writes r).status ≠ r.status →
        (rewritten now writes r).completedAt = completion now (rewritten now writes r).status) := by
  rcases @rewritten_completedAt now writes r with ⟨hstatus, htime⟩ | ⟨w, hw, hid, hs, htime⟩
  · exact ⟨fun _ => htime, fun hne => absurd hstatus hne⟩
  refine ⟨fun hsame => ?_, fun _ => htime⟩
  rw [htime, completion_eq, hsame]
  rw [hsame] at hs
  cases hcompleted : r.status.isCompleted with
  | true => exact (hfresh w hw hid r.status hs hcompleted rfl).symm
  | false =>
    rw [hcompleted, Option.isSome_eq_false_iff, Option.isNone_iff_eq_none] at hr
    rw [hr]
    rfl

/-- The statements beside `writeItems` leave the status and the time alone. -/
theorem written_time {st : Statement}
    (hwrites : ∀ actorUserId writes, st ≠ .writeItems actorUserId writes) {id : Int} {r' : WorkItem}
    (hr : db.workItem id = some r) (hr' : (st.written now db).workItem id = some r') :
    r'.status = r.status ∧ r'.completedAt = r.completedAt := by
  have h := written_field (fun wi => (wi.status, wi.completedAt)) (fun _ _ _ => rfl) hwrites hr hr'
  exact Prod.mk.inj h

/-- A row that was not there is that of a new work item. -/
theorem written_new {st : Statement} {id : Int} {r' : WorkItem} (hr : db.workItem id = none)
    (hr' : (st.written now db).workItem id = some r') :
    r'.status = .opened ∧ r'.completedAt = none := by
  have same : ∀ db' : Db, db'.workItems = db.workItems → db'.workItem id = some r' → False := by
    intro db' hitems h
    unfold Db.workItem at h hr
    rw [hitems, hr] at h
    cases h
  cases st with
  | writeItems actorUserId writes =>
    change (db.writeItems writes now).workItem id = some r' at hr'
    rw [writeItems_workItem, hr] at hr'
    cases hr'
  | insertProject p => exact (same _ (insertProject_workItems db p now) hr').elim
  | addMembers projectId actorUserId selected role =>
    simp only [Statement.written] at hr'
    split at hr'
    · exact (same _ (addMembers_workItems db projectId actorUserId selected role now) hr').elim
    · exact (same _ rfl hr').elim
  | archiveItem read actorUserId =>
    change (db.archiveItem read actorUserId now).workItem id = some r' at hr'
    rw [archiveItem_workItem, hr] at hr'
    cases hr'
  | restoreItem itemKey actorUserId =>
    change (db.restoreItem itemKey actorUserId now).1.workItem id = some r' at hr'
    rcases @restoreItem_fst db now itemKey actorUserId with h | ⟨row, _, _, h⟩
    · exact (same _ (by rw [h]) hr').elim
    · rw [h, undelete_workItem, hr] at hr'
      cases hr'
  | insertItem i =>
    change (db.insertItem i now).1.workItem id = some r' at hr'
    rcases @insertItem_fst db now i with h | ⟨itemKey, h, _, _⟩
    · exact (same _ (by rw [h]) hr').elim
    · unfold Db.workItem at hr hr'
      rw [h, List.find?_append, hr, Option.none_or] at hr'
      obtain rfl := List.mem_singleton.mp (List.mem_of_find?_eq_some hr')
      exact ⟨rfl, rfl⟩
  | _ => exact (same _ rfl hr').elim

/-- A statement leaves a completed row with a time, and any other without. -/
theorem perform_isSome {m : Moment} {st : Statement}
    (h : ∀ id r, db.workItem id = some r → r.completedAt.isSome = r.status.isCompleted) (id : Int)
    (r' : WorkItem) (hr' : (perform m st db).1.workItem id = some r') :
    r'.completedAt.isSome = r'.status.isCompleted := by
  rcases perform_written m st db with heq | heq
  · rw [heq] at hr'
    exact h id r' hr'
  rw [heq] at hr'
  cases hr : db.workItem id with
  | none =>
    obtain ⟨hstatus, htime⟩ := written_new hr hr'
    rw [hstatus, htime]
    rfl
  | some r =>
    by_cases hwrites : ∃ actorUserId writes, st = .writeItems actorUserId writes
    · obtain ⟨actorUserId, writes, rfl⟩ := hwrites
      change (db.writeItems writes m.now).workItem id = some r' at hr'
      rw [writeItems_workItem, hr] at hr'
      obtain rfl := Option.some.inj hr'
      rcases @rewritten_completedAt m.now writes r with ⟨hstatus, htime⟩ | ⟨w, _, _, _, htime⟩
      · rw [hstatus, htime]
        exact h id r hr
      · rw [htime, completion_eq]
        split
        · rename_i hcompleted
          rw [hcompleted]
          rfl
        · rename_i hcompleted
          rw [Bool.not_eq_true] at hcompleted
          rw [hcompleted]
          rfl
    · obtain ⟨hstatus, htime⟩ :=
        written_time (fun actorUserId writes heq => hwrites ⟨actorUserId, writes, heq⟩) hr hr'
      rw [hstatus, htime]
      exact h id r hr

/-- The condition on a statement. -/
def FreshStatement (now : Int) (db : Db) : Statement → Prop
  | .writeItems _ writes => ∀ id r, db.workItem id = some r → FreshWrites now writes r
  | _ => True

/-- A statement that meets the condition changes the time with the status and not without. -/
theorem perform_time {m : Moment} {st : Statement}
    (h : ∀ id r, db.workItem id = some r → r.completedAt.isSome = r.status.isCompleted)
    (hfresh : FreshStatement m.now db st) {id : Int} {r' : WorkItem} (hr : db.workItem id = some r)
    (hr' : (perform m st db).1.workItem id = some r') :
    (r'.status = r.status → r'.completedAt = r.completedAt) ∧
      (r'.status ≠ r.status → r'.completedAt = completion m.now r'.status) := by
  rcases perform_written m st db with heq | heq
  · rw [heq, hr] at hr'
    obtain rfl := Option.some.inj hr'
    exact ⟨fun _ => rfl, fun hne => absurd rfl hne⟩
  rw [heq] at hr'
  by_cases hwrites : ∃ actorUserId writes, st = .writeItems actorUserId writes
  · obtain ⟨actorUserId, writes, rfl⟩ := hwrites
    change (db.writeItems writes m.now).workItem id = some r' at hr'
    rw [writeItems_workItem, hr] at hr'
    obtain rfl := Option.some.inj hr'
    exact rewritten_time (h id r hr) (hfresh id r hr)
  · obtain ⟨hstatus, htime⟩ :=
      written_time (fun actorUserId writes heq => hwrites ⟨actorUserId, writes, heq⟩) hr hr'
    exact ⟨fun _ => htime, fun hne => absurd hstatus hne⟩

end Rows

/-! ## Runs -/

abbrev WorkEntry := Entry Server (Turn WorkRequest Moment) Unit

/-- The time of the step, if the status of the work item changes in it. -/
def statusChange (id : Int) (x : WorkEntry) : Option Int :=
  match x.event with
  | .begin _ => none
  | .resume i m =>
    match nextStatement x.pre i with
    | none => none
    | some st =>
      if ((perform m st x.pre.db).1.workItem id).map (·.status) ≠
          (x.pre.db.workItem id).map (·.status) then some m.now
      else none

/-- When the status of the work item last changed. -/
def lastChange (tr : List WorkEntry) (id : Int) : Option Int :=
  (tr.filterMap (statusChange id)).getLast?

theorem lastChange_append (tr : List WorkEntry) (x : WorkEntry) (id : Int) :
    lastChange (tr ++ [x]) id = (statusChange id x).or (lastChange tr id) := by
  unfold lastChange
  rw [List.filterMap_append, List.getLast?_append]
  cases hx : statusChange id x with
  | none => simp [hx]
  | some now => simp [hx]

/-- No transaction gives a completed work item the status that it has, at another time than that of
its completion. -/
def Fresh (s : Server) : Turn WorkRequest Moment → Prop
  | .begin _ => True
  | .resume i m => ∀ st, nextStatement s i = some st → FreshStatement m.now s.db st

/-- The time of completion behind a run that began with these tables. -/
def completedBy (db : Db) (tr : List WorkEntry) (r : WorkItem) : Option Int :=
  if r.status.isCompleted then
    (lastChange tr r.id).or ((db.workItem r.id).bind (·.completedAt))
  else none

section Steps

variable {db : Db} {tr : List WorkEntry} {s : Server}

/-- Exactly the completed items have a time of completion. -/
def Timed (db : Db) : Prop :=
  ∀ id r, db.workItem id = some r → r.completedAt.isSome = r.status.isCompleted

theorem timed_of_run (h : Timed db)
    (hrun : Run (serve perform startWork) { db := db, calls := [] } tr s) : Timed s.db := by
  refine hrun.invariant (C := fun _ _ => True) (I := fun s => Timed s.db) h ?_ fun _ _ => trivial
  intro s e u o htimed _ hstep
  cases e with
  | begin c =>
    cases hstep
    exact htimed
  | resume i m =>
    simp only [serve] at hstep
    split at hstep
    · cases hstep
      exact perform_isSome htimed
    · cases hstep

theorem statusChange_begin (id : Int) (s : Server) (request : WorkRequest) :
    statusChange id ⟨s, .begin request, ()⟩ = none := rfl

theorem statusChange_resume {id : Int} {i : Nat} {m : Moment} {st : Statement}
    (hnext : nextStatement s i = some st) :
    statusChange id ⟨s, .resume i m, ()⟩ =
      if ((perform m st s.db).1.workItem id).map (·.status) ≠ (s.db.workItem id).map (·.status)
      then some m.now else none := by
  unfold statusChange
  dsimp only
  rw [hnext]

/-- A statement that meets the condition keeps the times right. -/
theorem completedBy_step (htimed : Timed s.db)
    (h : ∀ id r, s.db.workItem id = some r → r.completedAt = completedBy db tr r) {i : Nat}
    {m : Moment} {st : Statement} (hnext : nextStatement s i = some st)
    (hfresh : FreshStatement m.now s.db st) (id : Int) (r' : WorkItem)
    (hr' : (perform m st s.db).1.workItem id = some r') :
    r'.completedAt = completedBy db (tr ++ [⟨s, .resume i m, ()⟩]) r' := by
  have hchange := @statusChange_resume s id i m st hnext
  unfold completedBy
  rw [workItem_id hr', lastChange_append]
  rw [hr', Option.map_some] at hchange
  cases hr : s.db.workItem id with
  | none =>
    rcases perform_written m st s.db with heq | heq
    · rw [heq, hr] at hr'
      cases hr'
    rw [heq] at hr'
    obtain ⟨hstatus, htime⟩ := written_new hr hr'
    rw [hstatus, htime]
    rfl
  | some r =>
    obtain ⟨hsame, hchanged⟩ := perform_time htimed hfresh hr hr'
    rw [hr, Option.map_some] at hchange
    by_cases hstatus : r'.status = r.status
    · rw [if_neg (not_not_intro (congrArg some hstatus))] at hchange
      rw [hchange, Option.none_or, hsame hstatus, h id r hr, hstatus]
      unfold completedBy
      rw [workItem_id hr]
    · rw [if_pos (fun heq => hstatus (Option.some.inj heq))] at hchange
      rw [hchange, hchanged hstatus, Option.some_or, Option.some_or]
      rfl

end Steps

/-- From tables in which exactly the completed items have a time of completion on, in every run of
calls on work items they still do. If no transaction gives a completed item the status that it has at
another time, the time is that of the last change of the status, and a step that leaves the status of
an item leaves its time. -/
theorem completion_time_is_of_the_change (db : Db) (h : Timed db) (tr : List WorkEntry) (s : Server)
    (hrun : Run (serve perform startWork) { db := db, calls := [] } tr s) :
    Timed s.db ∧
      ((∀ x ∈ tr, Fresh x.pre x.event) →
        (∀ id r, s.db.workItem id = some r → r.completedAt = completedBy db tr r) ∧
        ∀ x ∈ tr, ∀ i m st, x.event = .resume i m → nextStatement x.pre i = some st →
          ∀ id r r', x.pre.db.workItem id = some r → (perform m st x.pre.db).1.workItem id = some r' →
            r'.status = r.status → r'.completedAt = r.completedAt) := by
  refine ⟨timed_of_run h hrun, fun hfresh => ?_⟩
  have hinv := hrun.history (C := Fresh) (I := fun tr s => (Timed s.db ∧
      ∀ id r, s.db.workItem id = some r → r.completedAt = completedBy db tr r) ∧
      ∀ x ∈ tr, Timed x.pre.db) ⟨⟨h, ?_⟩, by simp⟩ ?_ hfresh
  · refine ⟨hinv.1.2, ?_⟩
    intro x hx i m st hevent hnext id r r' hr hr'
    have hstep := hfresh x hx
    rw [hevent] at hstep
    exact (perform_time (hinv.2 x hx) (hstep st hnext) hr hr').1
  · intro id r hr
    unfold completedBy
    have htimed := h id r hr
    cases hcompleted : r.status.isCompleted with
    | true =>
      rw [if_pos rfl, workItem_id hr, hr]
      rfl
    | false =>
      rw [hcompleted, Option.isSome_eq_false_iff, Option.isNone_iff_eq_none] at htimed
      exact htimed
  intro tr s e u o _ ⟨⟨htimed, htimes⟩, hpast⟩ hc hstep
  have past : ∀ x ∈ tr ++ [⟨s, e, o⟩], Timed x.pre.db := by
    intro x hx
    rcases List.mem_append.mp hx with hmem | hmem
    · exact hpast x hmem
    · obtain rfl := List.mem_singleton.mp hmem
      exact htimed
  cases e with
  | begin request =>
    cases hstep
    refine ⟨⟨htimed, ?_⟩, past⟩
    intro id r hr
    rw [htimes id r hr]
    unfold completedBy
    rw [lastChange_append, statusChange_begin, Option.none_or]
  | resume i m =>
    simp only [serve] at hstep
    split at hstep
    · rename_i st k hget
      cases hstep
      have hnext : nextStatement s i = some st := by rw [nextStatement, hget]
      exact ⟨⟨perform_isSome htimed, completedBy_step htimed htimes hnext (hc st hnext)⟩, past⟩
    · cases hstep

/-- A statement at the time. -/
def atTime (now : Int) : Moment := { now, fault := none }

def isFresh (s : Server) : Turn WorkRequest Moment → Bool
  | .begin _ => true
  | .resume i m =>
    match nextStatement s i with
    | some (.writeItems _ writes) => writes.all fun w =>
        match w.change.status? with
        | none => true
        | some status => !status.isCompleted || s.db.workItems.all fun r =>
            r.status != status || r.completedAt == some m.now
    | _ => true

theorem fresh_of_test (s : Server) (e : Turn WorkRequest Moment) (h : isFresh s e = true) :
    Fresh s e := by
  cases e with
  | begin request => trivial
  | resume i m =>
    intro st hst
    unfold isFresh at h
    dsimp only at h
    rw [hst] at h
    cases st with
    | writeItems actorUserId writes =>
      intro id r hr w hw _ status hs hcompleted hsame
      have hall := List.all_eq_true.mp h w hw
      rw [hs] at hall
      dsimp only at hall
      rw [hcompleted, Bool.not_true, Bool.false_or] at hall
      have hrow := List.all_eq_true.mp hall r (workItem_mem hr)
      rw [Bool.or_eq_true, bne_iff_ne, beq_iff_eq] at hrow
      exact hrow.resolve_left fun hne => hne hsame
    | _ => trivial

theorem taskDb_timed : Timed taskDb := by
  intro id r hr
  obtain rfl := List.mem_singleton.mp (workItem_mem hr)
  rfl

/-- A task is done at 5, archived at 6, restored at 7 and closed at 9. -/
def closedTurns : List (Turn WorkRequest Moment) :=
  .begin (.request (.updateWorkItemStatus 1 "PA-1" "done")) ::
    List.replicate 3 (.resume 0 (atTime 5)) ++
    [.begin (.request (.archiveWorkItem 1 "PA-1"))] ++ List.replicate 3 (.resume 1 (atTime 6)) ++
    [.begin (.request (.restoreWorkItem 1 "PA-1"))] ++ List.replicate 2 (.resume 2 (atTime 7)) ++
    [.begin (.request (.closeWorkItem 1 "PA-1"))] ++ List.replicate 3 (.resume 3 (atTime 9))

/-- The title of a task is edited after it was done. -/
def editedTurns : List (Turn WorkRequest Moment) :=
  .begin (.request (.updateWorkItemStatus 1 "PA-1" "done")) ::
    List.replicate 3 (.resume 0 (atTime 5)) ++
    [.begin (.request (.updateWorkItem 1 "PA-1"
      ⟨"another title", "", "done", "P2", "alice", "", "", none⟩))] ++
    List.replicate 4 (.resume 1 (atTime 9))

theorem closed_task_has_the_time :
    ∃ tr s, exec (serve perform startWork) ({ db := taskDb, calls := [] } : Server) closedTurns =
        some (tr, s) ∧ s.db.workItems.map (fun r => (r.status, r.completedAt)) = [(.closed, some 9)] ∧
      ∀ id r, s.db.workItem id = some r → r.completedAt = completedBy taskDb tr r := by
  obtain ⟨r, hr⟩ : ∃ r, exec (serve perform startWork) ({ db := taskDb, calls := [] } : Server)
      closedTurns = some r := ⟨_, rfl⟩
  have hrows : (exec (serve perform startWork) ({ db := taskDb, calls := [] } : Server)
      closedTurns).map (fun r => r.2.db.workItems.map
        (fun r => (r.status, r.completedAt))) = some [(.closed, some 9)] := by
    decide +kernel
  rw [hr] at hrows
  have hfresh : ∀ x ∈ r.1, Fresh x.pre x.event :=
    tested_exec hr fresh_of_test (by decide +kernel)
  exact ⟨r.1, r.2, hr, Option.some.inj hrows,
    ((completion_time_is_of_the_change taskDb taskDb_timed r.1 r.2 (run_of_exec hr)).2 hfresh).1⟩

/-- An edit of the title moves the time of completion. -/
theorem edit_moves_the_completion :
    Timed taskDb ∧ ∃ tr s r, exec (serve perform startWork) ({ db := taskDb, calls := [] } : Server)
        editedTurns = some (tr, s) ∧ s.db.workItem 1 = some r ∧ r.status = .done ∧
      lastChange tr 1 = some 5 ∧ r.completedAt = some 9 := by
  refine ⟨taskDb_timed, ?_⟩
  obtain ⟨r, hr⟩ : ∃ r, exec (serve perform startWork) ({ db := taskDb, calls := [] } : Server)
      editedTurns = some r := ⟨_, rfl⟩
  have hfacts : (exec (serve perform startWork) ({ db := taskDb, calls := [] } : Server)
      editedTurns).map (fun r => ((r.2.db.workItem 1).map (fun r => (r.status, r.completedAt)),
        lastChange r.1 1)) = some (some (.done, some 9), some 5) := by
    decide +kernel
  rw [hr] at hfacts
  obtain ⟨hrow, hchange⟩ := Prod.mk.inj (Option.some.inj hfacts)
  obtain ⟨row, hrow, hvalues⟩ := Option.map_eq_some_iff.mp hrow
  obtain ⟨hstatus, htime⟩ := Prod.mk.inj hvalues
  exact ⟨r.1, r.2, row, hr, hrow, hstatus, hchange, htime⟩

end Projects
end Yuance
