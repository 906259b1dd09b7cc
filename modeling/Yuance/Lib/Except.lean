import Mathlib

/-!
# Yuance.Lib.Except

Fallible code as a chain of binds. An early return is `rejectIf`, a missing value is `okOr`, so
that a body of `n` checks stays a chain of `n` binds and its equations do not branch.
-/

namespace Lib

variable {ε α β : Type}

/-- `if c { return Err(e) }`. -/
def rejectIf (c : Prop) [Decidable c] (e : ε) : Except ε Unit := if c then .error e else .ok ()

/-- `value.ok_or(e)?`. -/
def okOr (value : Option α) (e : ε) : Except ε α :=
  match value with
  | none => .error e
  | some a => .ok a

/-- `for a in l { check(a)?; }`. -/
def forEach (check : α → Except ε Unit) : List α → Except ε Unit
  | [] => .ok ()
  | a :: l => do
    check a
    forEach check l

theorem ok_bind (a : α) (f : α → Except ε β) : (Except.ok a >>= f) = f a := by
  simp only [bind, Except.bind]

theorem error_bind (e : ε) (f : α → Except ε β) : (Except.error e >>= f) = .error e := by
  simp only [bind, Except.bind]

theorem pure_ok (a : α) : (pure a : Except ε α) = Except.ok a := by
  simp only [pure, Except.pure]

-- the instance is an ordinary implicit argument: rewriting inside `c` changes its form
theorem rejectIf_neg {c : Prop} {_ : Decidable c} {e : ε} (h : ¬ c) : rejectIf c e = .ok () :=
  if_neg h

theorem rejectIf_pos {c : Prop} {_ : Decidable c} {e : ε} (h : c) : rejectIf c e = .error e :=
  if_pos h

@[simp] theorem okOr_some (a : α) (e : ε) : okOr (some a) e = .ok a := rfl

@[simp] theorem okOr_none (e : ε) : okOr (none : Option α) e = .error e := rfl

/-- A chain that returns has returned from each of its links. -/
theorem bind_eq_ok {x : Except ε α} {f : α → Except ε β} {b : β} :
    (x >>= f) = .ok b ↔ ∃ a, x = .ok a ∧ f a = .ok b := by
  cases x with
  | error e => simp only [error_bind, reduceCtorEq, false_and, exists_false]
  | ok a => simp only [ok_bind, Except.ok.injEq, exists_eq_left']

/-- Two chains that go on alike where their first link returns. -/
theorem bind_congr_ok {x : Except ε α} {f g : α → Except ε β} (h : ∀ a, x = .ok a → f a = g a) :
    (x >>= f) = (x >>= g) := by
  cases x with
  | error e => rw [error_bind, error_bind]
  | ok a => rw [ok_bind, ok_bind, h a rfl]

theorem rejectIf_eq_ok {c : Prop} [Decidable c] {e : ε} {u : Unit} :
    rejectIf c e = .ok u ↔ ¬ c := by
  by_cases h : c
  · simp [rejectIf, h]
  · simp [rejectIf, h]

theorem okOr_eq_ok {o : Option α} {e : ε} {a : α} : okOr o e = .ok a ↔ o = some a := by
  cases o <;> simp [okOr]

theorem forEach_eq_ok {check : α → Except ε Unit} {l : List α} {u : Unit} :
    forEach check l = .ok u ↔ ∀ a ∈ l, check a = .ok () := by
  induction l with
  | nil => simp [forEach]
  | cons a l ih =>
    rw [forEach, bind_eq_ok]
    constructor
    · rintro ⟨v, ha, hl⟩ b hb
      rcases List.mem_cons.mp hb with rfl | hmem
      · exact ha
      · exact ih.mp hl b hmem
    · intro h
      exact ⟨(), h a List.mem_cons_self, ih.mpr fun b hb => h b (List.mem_cons_of_mem a hb)⟩

/-! ### Errors that a chain cannot end with -/

theorem bind_ne_error {e : ε} {x : Except ε α} {f : α → Except ε β} (hx : x ≠ .error e)
    (hf : ∀ a, x = .ok a → f a ≠ .error e) : (x >>= f) ≠ .error e := by
  cases x with
  | error e' =>
    rw [error_bind]
    exact fun h => hx (congrArg Except.error (Except.error.inj h))
  | ok a =>
    rw [ok_bind]
    exact hf a rfl

theorem rejectIf_ne_error {c : Prop} [Decidable c] {e e' : ε} (h : e ≠ e') :
    rejectIf c e ≠ .error e' := by
  unfold rejectIf
  split
  · exact fun heq => h (Except.error.inj heq)
  · exact fun heq => (by cases heq)

theorem okOr_ne_error {o : Option α} {e e' : ε} (h : e ≠ e') : okOr o e ≠ .error e' := by
  cases o with
  | none => exact fun heq => h (Except.error.inj heq)
  | some a => exact fun heq => (by cases heq)

/-- A loop whose body always returns. -/
theorem mapM_ok {f : α → Except ε β} {g : α → β} {l : List α} (h : ∀ a ∈ l, f a = .ok (g a)) :
    l.mapM f = .ok (l.map g) := by
  induction l with
  | nil => rfl
  | cons a l ih =>
    rw [List.mapM_cons, h a List.mem_cons_self, ok_bind,
      ih fun b hb => h b (List.mem_cons_of_mem a hb), ok_bind, pure_ok, List.map_cons]

/-- A loop over `0..k` whose body takes the state `st i` to `st (i + 1)` ends in `st k`. -/
theorem foldlM_range_ok {σ : Type} {step : σ → Nat → Except ε σ} {st : Nat → σ} (k : Nat)
    (h : ∀ i, i < k → step (st i) i = .ok (st (i + 1))) :
    (List.range k).foldlM step (st 0) = .ok (st k) := by
  induction k with
  | zero => rw [List.range_zero, List.foldlM_nil, pure_ok]
  | succ k ih =>
    rw [List.range_succ, List.foldlM_append, ih (fun i hi => h i (by omega)), ok_bind,
      List.foldlM_cons, h k (by omega), ok_bind, List.foldlM_nil, pure_ok]

/-- A loop whose body keeps something of the state. -/
theorem foldlM_keeps {σ : Type} {step : σ → α → Except ε σ} {f : σ → β}
    (hstep : ∀ s a s', step s a = .ok s' → f s' = f s) {l : List α} {s s' : σ}
    (h : l.foldlM step s = .ok s') : f s' = f s := by
  induction l generalizing s with
  | nil =>
    cases h
    rfl
  | cons a l ih =>
    rw [List.foldlM_cons] at h
    obtain ⟨s₁, hfirst, hrest⟩ := bind_eq_ok.mp h
    rw [ih hrest, hstep s a s₁ hfirst]

end Lib
