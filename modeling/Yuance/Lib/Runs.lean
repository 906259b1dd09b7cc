import Mathlib

/-!
# Yuance.Lib.Runs

A program that takes step after step: `step s e` is the state behind event `e` and what the step puts
out, or nothing where `e` cannot happen in `s`. A run is the list of the steps taken.

* `Run.history`: what holds of the run so far and the state it ends in.
* `Run.invariant`: what holds of every state reached.
* `Run.forall_entry`: what holds of every step taken.
-/

namespace Lib

variable {σ ε ο : Type}

/-- One step of a run: the state it was taken in, the event and the output. -/
structure Entry (σ ε ο : Type) where
  pre : σ
  event : ε
  out : ο

inductive Run (step : σ → ε → Option (σ × ο)) (s : σ) : List (Entry σ ε ο) → σ → Prop where
  | start : Run step s [] s
  | next {tr : List (Entry σ ε ο)} {t u : σ} {e : ε} {o : ο} (h : Run step s tr t)
      (he : step t e = some (u, o)) : Run step s (tr ++ [⟨t, e, o⟩]) u

/-- The run that a list of events gives, if every event can happen in its turn. -/
def exec (step : σ → ε → Option (σ × ο)) (s : σ) : List ε → Option (List (Entry σ ε ο) × σ)
  | [] => some ([], s)
  | e :: es =>
    match step s e with
    | none => none
    | some (t, o) => (exec step t es).map fun r => (⟨s, e, o⟩ :: r.1, r.2)

variable {step : σ → ε → Option (σ × ο)} {s t : σ} {tr : List (Entry σ ε ο)}

theorem Run.head {e : ε} {o : ο} {u : σ} (he : step s e = some (t, o)) (h : Run step t tr u) :
    Run step s (⟨s, e, o⟩ :: tr) u := by
  induction h with
  | start => exact .next .start he
  | next _ he' ih => exact .next ih he'

theorem run_of_exec {es : List ε} (h : exec step s es = some (tr, t)) : Run step s tr t := by
  induction es generalizing s tr with
  | nil =>
    cases h
    exact .start
  | cons e es ih =>
    unfold exec at h
    split at h
    · cases h
    · rename_i u o he
      obtain ⟨⟨tr', t'⟩, hx, heq⟩ := Option.map_eq_some_iff.mp h
      cases heq
      exact Run.head he (ih hx)

theorem event_of_exec {es : List ε} (h : exec step s es = some (tr, t)) {x : Entry σ ε ο}
    (hx : x ∈ tr) : x.event ∈ es := by
  induction es generalizing s tr with
  | nil =>
    cases h
    cases hx
  | cons e es ih =>
    unfold exec at h
    split at h
    · cases h
    · obtain ⟨⟨tr', t'⟩, hx', heq⟩ := Option.map_eq_some_iff.mp h
      cases heq
      rcases List.mem_cons.mp hx with rfl | hmem
      · exact List.mem_cons_self
      · exact List.mem_cons_of_mem _ (ih hx' hmem)

/-- Each event of the list meets `C` in the state it happens in. -/
def Checks (step : σ → ε → Option (σ × ο)) (C : σ → ε → Prop) (s : σ) : List ε → Prop
  | [] => True
  | e :: es =>
    C s e ∧
      match step s e with
      | none => True
      | some (t, _) => Checks step C t es

theorem checks_exec {C : σ → ε → Prop} {es : List ε} (h : exec step s es = some (tr, t))
    (hc : Checks step C s es) {x : Entry σ ε ο} (hx : x ∈ tr) : C x.pre x.event := by
  induction es generalizing s tr with
  | nil =>
    cases h
    cases hx
  | cons e es ih =>
    unfold exec at h
    unfold Checks at hc
    split at h
    · cases h
    · rename_i u o he
      rw [he] at hc
      obtain ⟨⟨tr', t'⟩, hx', heq⟩ := Option.map_eq_some_iff.mp h
      cases heq
      rcases List.mem_cons.mp hx with rfl | hmem
      · exact hc.1
      · exact ih hx' hc.2 hmem

/-- Every event of the list passes the test in the state that it happens in. -/
def tested (step : σ → ε → Option (σ × ο)) (c : σ → ε → Bool) (s : σ) : List ε → Bool
  | [] => true
  | e :: es =>
    c s e &&
      match step s e with
      | none => true
      | some (t, _) => tested step c t es

theorem tested_exec {c : σ → ε → Bool} {C : σ → ε → Prop} {es : List ε}
    (h : exec step s es = some (tr, t)) (hc : ∀ s e, c s e = true → C s e)
    (htested : tested step c s es = true) : ∀ x ∈ tr, C x.pre x.event := by
  intro x hx
  refine checks_exec h ?_ hx
  clear h
  induction es generalizing s with
  | nil => trivial
  | cons e es ih =>
    unfold tested at htested
    rw [Bool.and_eq_true] at htested
    refine ⟨hc s e htested.1, ?_⟩
    split
    · trivial
    · rename_i u o he
      rw [he] at htested
      exact ih htested.2

/-- A list that is cut at an element, when one element more is put behind it. -/
theorem cut_append {α : Type} {tr before after : List α} {n x : α}
    (h : tr ++ [n] = before ++ x :: after) :
    (before = tr ∧ x = n ∧ after = []) ∨
      ∃ rest, after = rest ++ [n] ∧ tr = before ++ x :: rest := by
  rcases List.eq_nil_or_concat after with rfl | ⟨rest, z, rfl⟩
  · obtain ⟨hbefore, hx⟩ := List.append_inj' h rfl
    exact .inl ⟨hbefore.symm, (List.cons.inj hx).1.symm, rfl⟩
  · rw [List.concat_eq_append, ← List.cons_append, ← List.append_assoc] at h
    obtain ⟨htr, hz⟩ := List.append_inj' h rfl
    obtain rfl := (List.cons.inj hz).1
    exact .inr ⟨rest, List.concat_eq_append, htr⟩

/-- A run, a step behind it and a run behind the step. -/
theorem Run.join {before after : List (Entry σ ε ο)} {e : ε} {o : ο} {u v : σ}
    (h : Run step s before t) (he : step t e = some (u, o)) (h' : Run step u after v) :
    Run step s (before ++ ⟨t, e, o⟩ :: after) v := by
  induction h' with
  | start => exact .next h he
  | next _ he' ih =>
    rw [← List.cons_append, ← List.append_assoc]
    exact .next ih he'

/-- Induction over a run whose steps all meet the condition `C`. -/
theorem Run.history {C : σ → ε → Prop} {I : List (Entry σ ε ο) → σ → Prop} (h0 : I [] s)
    (hstep : ∀ tr t e u o, Run step s tr t → I tr t → C t e → step t e = some (u, o) →
      I (tr ++ [⟨t, e, o⟩]) u)
    (h : Run step s tr t) (hok : ∀ x ∈ tr, C x.pre x.event) : I tr t := by
  induction h with
  | start => exact h0
  | @next tr t u e o hr he ih =>
    have hlast : C t e := hok ⟨t, e, o⟩ (by simp)
    exact hstep tr t e u o hr (ih fun x hx => hok x (by simp [hx])) hlast he

theorem Run.invariant {C : σ → ε → Prop} {I : σ → Prop} (h0 : I s)
    (hstep : ∀ t e u o, I t → C t e → step t e = some (u, o) → I u)
    (h : Run step s tr t) (hok : ∀ x ∈ tr, C x.pre x.event) : I t :=
  h.history (I := fun _ t => I t) h0 (fun _ t e u o _ hi hk he => hstep t e u o hi hk he) hok

/-- A property of single steps that the invariant gives holds of every step of a run. -/
theorem Run.forall_entry {C : σ → ε → Prop} {I : σ → Prop} {Q : Entry σ ε ο → Prop} (h0 : I s)
    (hstep : ∀ t e u o, I t → C t e → step t e = some (u, o) → I u ∧ Q ⟨t, e, o⟩)
    (h : Run step s tr t) (hok : ∀ x ∈ tr, C x.pre x.event) : ∀ x ∈ tr, Q x := by
  have hh := h.history (C := C) (I := fun tr t => I t ∧ ∀ x ∈ tr, Q x) ⟨h0, by simp⟩ ?_ hok
  · exact hh.2
  · intro tr t e u o _ ⟨hi, hq⟩ hk he
    obtain ⟨hu, hx⟩ := hstep t e u o hi hk he
    refine ⟨hu, ?_⟩
    intro x hmem
    rcases List.mem_append.mp hmem with hm | hm
    · exact hq x hm
    · obtain rfl := List.mem_singleton.mp hm
      exact hx

end Lib
