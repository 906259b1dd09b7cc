import Yuance.Projects.History

/-!
# Yuance.Projects.Undisturbed

Calls on projects and work items that no other call comes between. What such a call has looked up is
still stored when it writes.

* `Rules`: what is kept, under which condition, and what a statement finds; lookups find anything.
* `Finds`: a call that finds something out and leaves the tables alone.
-/

namespace Yuance
namespace Projects

open Lib Platform

structure Rules where
  I : Db → Prop
  C : Db → Statement → Prop
  G : Db → Statement → Prop
  reads : ∀ st, IsRead st → ∀ db, G db st

/-- The call keeps the rules if no other call comes between its statements. -/
def Rules.Quietly (D : Rules) {α : Type} (Q : α → Db → Prop) (p : Task α) (db : Db) : Prop :=
  AloneWith perform D.I D.C D.G Q p db

/-- A call that finds out `R` and leaves the tables alone. -/
def Rules.Finds (D : Rules) {α : Type} (R : α → Prop) (p : Task α) (db : Db) : Prop :=
  D.Quietly (fun a db' => R a ∧ db' = db) p db

theorem Rules.Finds.then {D : Rules} {db : Db} {α β : Type} {p : Task α} {f : α → Task β}
    {R : α → Prop} {Q : β → Db → Prop} (h : D.Finds R p db)
    (hf : ∀ a, R a → D.Quietly Q (f a) db) : D.Quietly Q (p >>= f) db := by
  apply alone_bind h
  rintro a _ ⟨ha, rfl⟩
  exact hf a ha

namespace Undisturbed

variable {D : Rules} {db : Db} {α β : Type} {p : Task α} {f : α → Task β} {R : α → Prop}
  {Q : β → Db → Prop}

theorem looks_finds (h : Looks p) : D.Finds (fun _ => True) p db :=
  alone_of_issues h fun st hst b => ⟨D.reads st hst b, fun e => perform_read hst e b⟩

theorem Looks.then (h : Looks p) (hf : ∀ a, D.Quietly Q (f a) db) : D.Quietly Q (p >>= f) db :=
  (looks_finds h).then fun a _ => hf a

theorem check_finds {x : Except AppError α} (h : ∀ a, x = .ok a → R a) :
    D.Finds R (Call.ofExcept x) db :=
  alone_check fun a ha => ⟨h a ha, rfl⟩

theorem rejectIf_finds {c : Prop} [Decidable c] {e : AppError} :
    D.Finds (fun _ => ¬c) (Call.rejectIf c e) db :=
  alone_rejectIf fun h => ⟨h, rfl⟩

theorem okOr_finds {o : Option α} {e : AppError} :
    D.Finds (fun a => o = some a) (Call.okOr o e) db :=
  alone_okOr fun _ h => ⟨h, rfl⟩

theorem done_finds {a : α} (h : R a) : D.Finds R (pure a) db := alone_done ⟨h, rfl⟩

/-- A lookup finds what is stored. -/
theorem query_finds {st : Statement} {a : st.Answer} (hread : IsRead st)
    (h : ∀ now, execute now db st = (db, .ok a)) : D.Finds (· = a) (query st) db := by
  apply alone_make
  intro hi _
  refine ⟨D.reads st hread db, fun m => ?_⟩
  unfold perform
  cases m.fault with
  | some e => exact ⟨hi, fun _ herr => nomatch herr⟩
  | none =>
    dsimp only
    rw [h m.now]
    exact ⟨hi, fun b hb => ⟨(Except.ok.inj hb).symm, rfl⟩⟩

theorem getItem_finds (itemKey : String) :
    D.Finds (fun row => db.item itemKey = some row) (getItem itemKey) db := by
  unfold getItem
  refine Rules.Finds.then (query_finds trivial fun _ => rfl) ?_
  rintro _ rfl
  exact okOr_finds

/-- The member is the stored user with the name, which is well formed. -/
theorem resolveProjectMember_finds (projectId : Int) (username : String) :
    D.Finds (fun user => ∃ name, validateUsernameRef username = .ok name ∧
      db.activeMember projectId name = some user) (resolveProjectMember projectId username) db := by
  unfold resolveProjectMember
  refine (check_finds fun _ h => h).then fun name hname => ?_
  refine Rules.Finds.then (query_finds trivial fun _ => rfl) ?_
  rintro _ rfl
  apply alone_okOr
  exact fun user huser => ⟨⟨name, hname, huser⟩, rfl⟩

theorem ensureComment_looks (workItemId : Int) (commentId : Option Int) :
    Looks (ensureComment workItemId commentId) := by
  cases commentId with
  | none => exact makes_done
  | some commentId =>
    refine makes_bind (makes_query trivial) fun _ => ?_
    exact makes_bind makes_okOr fun _ => makes_done

/-- The transaction, from what it keeps and finds. -/
theorem commit_quietly {st : Statement}
    (h : D.I db → D.C db st → D.G db st ∧ ∀ m, D.I (perform m st db).1) :
    D.Quietly (fun _ _ => True) (query st) db := by
  unfold query
  apply alone_make
  intro hi hc
  obtain ⟨hg, hkept⟩ := h hi hc
  exact ⟨hg, fun m => ⟨hkept m, fun _ _ => trivial⟩⟩

/-- The transaction, and the lookups behind it. -/
theorem commit_then {st : Statement} {f : st.Answer → Task β}
    (h : D.I db → D.C db st → D.G db st ∧ ∀ m, D.I (perform m st db).1)
    (hf : ∀ a, Looks (f a)) : D.Quietly (fun _ _ => True) (query st >>= f) db := by
  apply alone_bind (commit_quietly h)
  intro a db' _
  apply alone_mono (looks_finds (hf a))
  exact fun _ _ _ => trivial

/-- A call whose statements each keep the rules on their own account. -/
theorem makes_quietly {P : Statement → Prop} (h : Makes P p)
    (hP : ∀ st, P st → ∀ b, D.I b → D.C b st → D.G b st ∧ ∀ m, D.I (perform m st b).1) :
    D.Quietly (fun _ _ => True) p db := alone_of_each h hP

end Undisturbed

end Projects
end Yuance
