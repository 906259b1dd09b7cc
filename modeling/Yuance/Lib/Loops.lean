import Yuance.Lib.Calls

/-!
# Yuance.Lib.Loops

A loop over steps that may fail, on a state that they change: it stops at the first step that fails,
and what the steps before it did stays.

* `commit`: what is checked before the state is touched.
* `eachIn`: the loop.
* `Stepwise`: which steps fail does not depend on the steps before them, and a step that goes through
  makes the state grow.
* `Stepwise.unchanged_iff`: a loop that fails leaves the state alone exactly if its first step fails,
  or none.
-/

namespace Lib

variable {α β δ ε : Type}

/-- A change behind a check. -/
def commit (check : Except ε α) (f : α → δ × Except ε β) (d : δ) : δ × Except ε β :=
  match check with
  | .ok a => f a
  | .error e => (d, .error e)

section Commit

variable {check : Except ε α} {f : α → δ × Except ε β} {d d' : δ}

@[simp] theorem commit_ok (a : α) : commit (.ok a) f d = f a := rfl

@[simp] theorem commit_error (e : ε) : commit (.error e) f d = (d, .error e) := rfl

theorem commit_bind {γ : Type} {g : α → Except ε γ} {f : γ → δ × Except ε β} :
    commit (check >>= g) f d = commit check (fun a => commit (g a) f d) d := by
  cases check with
  | error e => rfl
  | ok a => rfl

theorem commit_congr {g : α → δ × Except ε β} (h : ∀ a, check = .ok a → f a = g a) :
    commit check f d = commit check g d := by
  cases check with
  | error e => rfl
  | ok a => exact h a rfl

theorem commit_eq_ok {b : β} :
    commit check f d = (d', .ok b) ↔ ∃ a, check = .ok a ∧ f a = (d', .ok b) := by
  cases check with
  | error e => simp
  | ok a => simp

end Commit

namespace Call

variable {S : Type} {A : S → Type} {E : Type} {perform : E → (s : S) → δ → δ × Except ε (A s)} {e : E}
  {d d' : δ}

theorem bind_bind {γ : Type} (p : Call S A ε α) (g : α → Call S A ε β) (f : β → Call S A ε γ) :
    (p >>= g) >>= f = p >>= fun a => g a >>= f := by
  induction p with
  | done a => rfl
  | fail err => rfl
  | ask s k ih => exact congrArg (ask s) (funext ih)

theorem solo_ofExcept_bind {x : Except ε α} {f : α → Call S A ε β} :
    solo perform e (ofExcept x >>= f) d = commit x (fun a => solo perform e (f a) d) d := by
  cases x with
  | error err => rfl
  | ok a => rfl

theorem solo_okOr_bind {o : Option α} {err : ε} {f : α → Call S A ε β} :
    solo perform e (Call.okOr o err >>= f) d =
      commit (Lib.okOr o err) (fun a => solo perform e (f a) d) d := solo_ofExcept_bind

theorem solo_rejectIf_bind {c : Prop} [Decidable c] {err : ε} {f : Unit → Call S A ε β} :
    solo perform e (Call.rejectIf c err >>= f) d =
      commit (Lib.rejectIf c err) (fun a => solo perform e (f a) d) d := solo_ofExcept_bind

theorem solo_make {s : S} : solo perform e (make s) d = perform e s d := by
  unfold make
  rw [solo]
  rcases perform e s d with ⟨d', err | a⟩
  · rfl
  · rfl

/-- A statement that goes through. -/
theorem solo_make_bind {s : S} {a : A s} {f : A s → Call S A ε β}
    (h : perform e s d = (d', .ok a)) :
    solo perform e (make s >>= f) d = solo perform e (f a) d' := by
  unfold make
  rw [ask_bind, solo, h]
  rfl

end Call

/-! ## The loop -/

/-- `for a in l { step(a)?; }`. -/
def eachIn (step : α → δ → δ × Except ε Unit) : List α → δ → δ × Except ε Unit
  | [], d => (d, .ok ())
  | a :: rest, d =>
    match step a d with
    | (d', .ok ()) => eachIn step rest d'
    | (d', .error e) => (d', .error e)

/-- The steps that fail are known before the loop. -/
structure Stepwise (step : α → δ → δ × Except ε Unit) (I : δ → Prop) (Fits : α → Prop)
    (size : δ → Nat) : Prop where
  accept : ∀ a d, I d → Fits a → ∃ d', step a d = (d', .ok ()) ∧ I d' ∧ size d < size d'
  refuse : ∀ a d, I d → ¬Fits a → ∃ e, step a d = (d, .error e)

/-- No element that fits comes before one that does not. -/
def AllOrNothing (Fits : α → Prop) : List α → Prop
  | [] => True
  | a :: rest => Fits a → ∀ b ∈ rest, Fits b

section Loop

variable {step : α → δ → δ × Except ε Unit} {I : δ → Prop} {Fits : α → Prop} {size : δ → Nat}
  {l : List α} {d d' : δ}

theorem eachIn_cons_ok {a : α} (h : step a d = (d', .ok ())) :
    eachIn step (a :: l) d = eachIn step l d' := by
  rw [eachIn, h]

theorem eachIn_cons_error {a : α} {e : ε} (h : step a d = (d', .error e)) :
    eachIn step (a :: l) d = (d', .error e) := by
  rw [eachIn, h]

theorem allOrNothing_congr {Fits' : α → Prop} (h : ∀ a ∈ l, Fits a ↔ Fits' a) :
    AllOrNothing Fits l ↔ AllOrNothing Fits' l := by
  cases l with
  | nil => exact Iff.rfl
  | cons a rest =>
    rw [List.forall_mem_cons] at h
    exact imp_congr h.1 (forall₂_congr h.2)

namespace Stepwise

variable (h : Stepwise step I Fits size)

include h in
theorem size_le (hd : I d) : size d ≤ size (eachIn step l d).1 := by
  induction l generalizing d with
  | nil => exact Nat.le_refl _
  | cons a rest ih =>
    by_cases ha : Fits a
    · obtain ⟨d₁, hstep, hd₁, hlt⟩ := h.accept a d hd ha
      rw [eachIn_cons_ok hstep]
      exact Nat.le_trans (Nat.le_of_lt hlt) (ih hd₁)
    · obtain ⟨e, hstep⟩ := h.refuse a d hd ha
      rw [eachIn_cons_error hstep]

include h in
/-- The loop goes through exactly if every element fits. -/
theorem ok_iff (hd : I d) : (∃ d', eachIn step l d = (d', .ok ())) ↔ ∀ a ∈ l, Fits a := by
  induction l generalizing d with
  | nil => exact ⟨fun _ _ h => absurd h List.not_mem_nil, fun _ => ⟨d, rfl⟩⟩
  | cons a rest ih =>
    rw [List.forall_mem_cons]
    by_cases ha : Fits a
    · obtain ⟨d₁, hstep, hd₁, _⟩ := h.accept a d hd ha
      rw [eachIn_cons_ok hstep, ih hd₁]
      exact ⟨fun hrest => ⟨ha, hrest⟩, fun hall => hall.2⟩
    · obtain ⟨e, hstep⟩ := h.refuse a d hd ha
      rw [eachIn_cons_error hstep]
      constructor
      · rintro ⟨d', hd'⟩
        cases hd'
      · exact fun hall => absurd hall.1 ha

include h in
/-- Where the first element does not fit, nothing was done. -/
theorem unchanged {e : ε} (hd : I d) (hfits : AllOrNothing Fits l)
    (hrun : eachIn step l d = (d', .error e)) : d' = d := by
  cases l with
  | nil => cases hrun
  | cons a rest =>
    by_cases ha : Fits a
    · have hall : ∀ b ∈ a :: rest, Fits b := List.forall_mem_cons.mpr ⟨ha, hfits ha⟩
      obtain ⟨d₁, hok⟩ := (h.ok_iff hd).mpr hall
      rw [hok] at hrun
      cases hrun
    · obtain ⟨e', hstep⟩ := h.refuse a d hd ha
      rw [eachIn_cons_error hstep] at hrun
      cases hrun
      rfl

include h in
/-- A loop that fails leaves the state as it was exactly if no element that fits comes before one that
does not. -/
theorem unchanged_iff (hd : I d) :
    (∀ d' e, eachIn step l d = (d', .error e) → size d' = size d) ↔ AllOrNothing Fits l := by
  constructor
  · intro hkeep
    cases l with
    | nil => trivial
    | cons a rest =>
      intro ha b hb
      obtain ⟨d₁, hstep, hd₁, hlt⟩ := h.accept a d hd ha
      rcases hrun : eachIn step rest d₁ with ⟨d', e | u⟩
      · have hsize := hkeep d' e (by rw [eachIn_cons_ok hstep, hrun])
        have hle : size d₁ ≤ size (eachIn step rest d₁).1 := h.size_le hd₁
        rw [hrun] at hle
        dsimp only at hle
        omega
      · exact (h.ok_iff hd₁).mp ⟨d', hrun⟩ b hb
  · intro hfits d' e hrun
    rw [h.unchanged hd hfits hrun]

include h in
/-- What a step establishes for its element, and every later step keeps, holds of all at the end. -/
theorem forall_mem {P : α → δ → Prop} (hd : I d)
    (hstep : ∀ a d d', I d → step a d = (d', .ok ()) → P a d')
    (hkeep : ∀ a b d d', I d → P a d → step b d = (d', .ok ()) → P a d')
    (hrun : eachIn step l d = (d', .ok ())) : ∀ a ∈ l, P a d' := by
  have hlater : ∀ (l : List α) (d : δ) (a : α), I d → P a d → eachIn step l d = (d', .ok ()) →
      P a d' := by
    intro l
    induction l with
    | nil =>
      intro d a _ ha hrun
      cases hrun
      exact ha
    | cons b rest ih =>
      intro d a hd ha hrun
      by_cases hb : Fits b
      · obtain ⟨d₁, hb₁, hd₁, _⟩ := h.accept b d hd hb
        rw [eachIn_cons_ok hb₁] at hrun
        exact ih d₁ a hd₁ (hkeep a b d d₁ hd ha hb₁) hrun
      · obtain ⟨e, hb₁⟩ := h.refuse b d hd hb
        rw [eachIn_cons_error hb₁] at hrun
        cases hrun
  induction l generalizing d with
  | nil => exact fun a ha => absurd ha List.not_mem_nil
  | cons b rest ih =>
    by_cases hb : Fits b
    · obtain ⟨d₁, hb₁, hd₁, _⟩ := h.accept b d hd hb
      rw [eachIn_cons_ok hb₁] at hrun
      rw [List.forall_mem_cons]
      exact ⟨hlater rest d₁ b hd₁ (hstep b d d₁ hd hb₁) hrun, ih hd₁ hrun⟩
    · obtain ⟨e, hb₁⟩ := h.refuse b d hd hb
      rw [eachIn_cons_error hb₁] at hrun
      cases hrun

end Stepwise

end Loop

end Lib
