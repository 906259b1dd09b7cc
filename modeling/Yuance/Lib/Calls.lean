import Yuance.Lib.Except
import Yuance.Lib.Runs

/-!
# Yuance.Lib.Calls

Calls that run beside each other on one database. A call returns, or fails, or makes a statement and
goes on with its answer; it fails where the statement does. A statement is atomic; between two
statements of a call other calls make theirs.

* `Safe`: what a call may do, whatever the others did since: each of its statements keeps the
  invariant `I` and the relation `R` that every statement respects.
* `safe_bind`, `safe_ask`: the rules for a call that is made of smaller ones.
* `Discipline`, `Keeps`: the same for a fixed invariant, with the rules that its proofs use.
* `serve_invariant`: safe calls keep the invariant in every run.
* `Protocol`, `Follows`: what a call makes sure of before each statement, with the rules for it.
* `serve_follows`: in every run, each statement finds what its call made sure of.
* `Issues`: what holds of every statement of a call, whatever it is answered.
* `Passes`: a call returns only behind a statement of some kind.
* `Alone`, `AloneWith`: what a call does when no other call comes between its statements, and what
  each of these finds.
-/

namespace Lib

inductive Call (S : Type) (A : S → Type) (ε α : Type) where
  | done (a : α)
  | fail (e : ε)
  | ask (s : S) (k : A s → Call S A ε α)

namespace Call

variable {S : Type} {A : S → Type} {ε α β : Type}

def bind : Call S A ε α → (α → Call S A ε β) → Call S A ε β
  | done a, f => f a
  | fail e, _ => fail e
  | ask s k, f => ask s fun a => bind (k a) f

instance : Monad (Call S A ε) where
  pure := Call.done
  bind := Call.bind

def ofExcept : Except ε α → Call S A ε α
  | .ok a => done a
  | .error e => fail e

/-- `if c { return Err(e) }`. -/
def rejectIf (c : Prop) [Decidable c] (e : ε) : Call S A ε Unit := ofExcept (Lib.rejectIf c e)

/-- `value.ok_or(e)?`. -/
def okOr (value : Option α) (e : ε) : Call S A ε α := ofExcept (Lib.okOr value e)

/-- One statement. -/
def make (s : S) : Call S A ε (A s) := ask s done

@[simp] theorem done_bind (a : α) (f : α → Call S A ε β) : (done a >>= f) = f a := rfl

@[simp] theorem fail_bind (e : ε) (f : α → Call S A ε β) : (fail e >>= f) = fail e := rfl

@[simp] theorem ask_bind (s : S) (k : A s → Call S A ε α) (f : α → Call S A ε β) :
    (ask s k >>= f) = ask s fun a => k a >>= f := rfl

/-- What the call returned, if it has. -/
def result : Call S A ε α → Option α
  | done a => some a
  | _ => none

theorem result_eq_some {p : Call S A ε α} {a : α} (h : p.result = some a) : p = done a := by
  cases p with
  | done b => rw [Option.some.inj h]
  | _ => cases h

/-- The call alone, from its first statement to its last. -/
def solo {δ E : Type} (perform : E → (s : S) → δ → δ × Except ε (A s)) (e : E) :
    Call S A ε α → δ → δ × Except ε α
  | done a, d => (d, .ok a)
  | fail err, d => (d, .error err)
  | ask s k, d =>
    match perform e s d with
    | (d', .ok a) => solo perform e (k a) d'
    | (d', .error err) => (d', .error err)

section Solo

variable {δ E : Type} {perform : E → (s : S) → δ → δ × Except ε (A s)} {e : E} {d d' : δ}

theorem solo_bind_ok {p : Call S A ε α} {f : α → Call S A ε β} {b : β} :
    solo perform e (p >>= f) d = (d', .ok b) ↔
      ∃ d₁ a, solo perform e p d = (d₁, .ok a) ∧ solo perform e (f a) d₁ = (d', .ok b) := by
  induction p generalizing d with
  | done a => simp [solo]
  | fail err => simp [solo]
  | ask s k ih =>
    rw [ask_bind, solo, solo]
    rcases hp : perform e s d with ⟨d₁, err | a⟩
    · simp
    · exact ih a

theorem solo_done_ok {a b : α} :
    solo perform e (pure a : Call S A ε α) d = (d', .ok b) ↔ a = b ∧ d' = d := by
  show (d, Except.ok a) = (d', Except.ok b) ↔ _
  constructor
  · intro h
    cases h
    exact ⟨rfl, rfl⟩
  · rintro ⟨rfl, rfl⟩
    rfl

theorem solo_ofExcept_ok {x : Except ε α} {a : α} :
    solo perform e (ofExcept x : Call S A ε α) d = (d', .ok a) ↔ x = .ok a ∧ d' = d := by
  cases x with
  | error err => simp [ofExcept, solo]
  | ok b =>
    rw [Except.ok.injEq]
    exact solo_done_ok

theorem solo_rejectIf_ok {c : Prop} [Decidable c] {err : ε} {u : Unit} :
    solo perform e (Call.rejectIf c err : Call S A ε Unit) d = (d', .ok u) ↔ ¬c ∧ d' = d := by
  unfold Call.rejectIf
  rw [solo_ofExcept_ok, rejectIf_eq_ok]

theorem solo_okOr_ok {o : Option α} {err : ε} {a : α} :
    solo perform e (Call.okOr o err : Call S A ε α) d = (d', .ok a) ↔ o = some a ∧ d' = d := by
  unfold Call.okOr
  rw [solo_ofExcept_ok, okOr_eq_ok]

theorem solo_make_ok {s : S} {a : A s} :
    solo perform e (make s : Call S A ε (A s)) d = (d', .ok a) ↔ perform e s d = (d', .ok a) := by
  unfold make
  rw [solo]
  rcases hp : perform e s d with ⟨d₁, err | b⟩
  · simp
  · simp [solo]

end Solo

end Call

section Safety

open Call

variable {S : Type} {A : S → Type} {ε α β δ E : Type}
  (perform : E → (s : S) → δ → δ × Except ε (A s))
  (R : δ → δ → Prop) (I : δ → Prop) (C : δ → S → Prop)

/-- Each statement of the call keeps `I` and `R`, if it meets `C` when its turn comes; where the call
returns, `Q` holds from then on. -/
def Safe (Q : α → δ → Prop) : Call S A ε α → δ → Prop
  | done a, d => ∀ d', R d d' → Q a d'
  | fail _, _ => True
  | ask s k, d => ∀ d' e, R d d' → I d' → C d' s →
      I (perform e s d').1 ∧ R d' (perform e s d').1 ∧
        ∀ a, (perform e s d').2 = .ok a → Safe Q (k a) (perform e s d').1

variable {perform R I C} {Q Q' : α → δ → Prop} {p : Call S A ε α} {d d' : δ}
  (htrans : ∀ a b c, R a b → R b c → R a c)

include htrans in
theorem safe_later (h : Safe perform R I C Q p d) (hd : R d d') : Safe perform R I C Q p d' := by
  cases p with
  | done a => exact fun b hb => h b (htrans _ _ _ hd hb)
  | fail e => trivial
  | ask s k => exact fun b e hb hi hc => h b e (htrans _ _ _ hd hb) hi hc

theorem safe_mono (h : Safe perform R I C Q p d) (hq : ∀ a d, Q a d → Q' a d) :
    Safe perform R I C Q' p d := by
  induction p generalizing d with
  | done a => exact fun b hb => hq a b (h b hb)
  | fail e => trivial
  | ask s k ih =>
    intro b e hb hi hc
    obtain ⟨h1, h2, h3⟩ := h b e hb hi hc
    exact ⟨h1, h2, fun a ha => ih a (h3 a ha)⟩

include htrans in
theorem safe_bind {f : α → Call S A ε β} {P : β → δ → Prop} (h : Safe perform R I C Q p d)
    (hrefl : ∀ a, R a a) (hf : ∀ a b, R d b → Q a b → Safe perform R I C P (f a) b) :
    Safe perform R I C P (p >>= f) d := by
  induction p generalizing d with
  | done a => exact hf a d (hrefl d) (h d (hrefl d))
  | fail e => trivial
  | ask s k ih =>
    intro b e hb hi hc
    obtain ⟨h1, h2, h3⟩ := h b e hb hi hc
    refine ⟨h1, h2, fun x hx => ih x (h3 x hx) ?_⟩
    intro a c hac hq
    exact hf a c (htrans _ _ _ hb (htrans _ _ _ h2 hac)) hq

/-- A statement, from what it keeps and what its answer tells from then on. -/
theorem safe_make {s : S} {P : A s → δ → Prop}
    (h : ∀ b e, R d b → I b → C b s → I (perform e s b).1 ∧ R b (perform e s b).1 ∧
      ∀ a, (perform e s b).2 = .ok a → ∀ c, R (perform e s b).1 c → P a c) :
    Safe perform R I C P (make s : Call S A ε (A s)) d :=
  fun b e hb hi hc => h b e hb hi hc

theorem safe_ofExcept {x : Except ε α} (h : ∀ a, x = .ok a → ∀ b, R d b → Q a b) :
    Safe perform R I C Q (ofExcept x) d := by
  cases x with
  | ok a => exact h a rfl
  | error e => trivial

theorem safe_rejectIf {c : Prop} [Decidable c] {e : ε} {P : Unit → δ → Prop}
    (h : ¬c → ∀ b, R d b → P () b) :
    Safe perform R I C P (Call.rejectIf c e : Call S A ε Unit) d := by
  apply safe_ofExcept
  intro _ hx
  exact h (rejectIf_eq_ok.mp hx)

theorem safe_okOr {o : Option α} {e : ε} (h : ∀ a, o = some a → ∀ b, R d b → Q a b) :
    Safe perform R I C Q (Call.okOr o e : Call S A ε α) d := by
  apply safe_ofExcept
  intro a hx
  exact h a (okOr_eq_ok.mp hx)

end Safety

/-- Statements with an invariant and a relation that they respect where they meet `C`. -/
structure Discipline (S : Type) (A : S → Type) (ε δ E : Type) where
  perform : E → (s : S) → δ → δ × Except ε (A s)
  R : δ → δ → Prop
  I : δ → Prop
  C : δ → S → Prop
  refl : ∀ a, R a a
  trans : ∀ a b c, R a b → R b c → R a c

section Rules

open Call

variable {S : Type} {A : S → Type} {ε α β δ E : Type} (D : Discipline S A ε δ E)

/-- The call keeps the invariant beside any other calls, and `Q` holds from its return on. -/
structure Keeps (Q : α → δ → Prop) (p : Call S A ε α) (d : δ) : Prop where
  safe : Safe D.perform D.R D.I D.C Q p d

/-- The call keeps the invariant, and nothing is said of what it returns. -/
def Quiet (p : Call S A ε α) (d : δ) : Prop := Keeps D (fun _ _ => True) p d

variable {D} {d : δ} {p : Call S A ε α} {Q Q' : α → δ → Prop} {f : α → Call S A ε β}
  {P : β → δ → Prop}

theorem keeps_bind (h : Keeps D Q p d) (hf : ∀ a b, D.R d b → Q a b → Keeps D P (f a) b) :
    Keeps D P (p >>= f) d :=
  ⟨safe_bind D.trans h.safe D.refl fun a b hb hq => (hf a b hb hq).safe⟩

theorem keeps_mono (h : Keeps D Q p d) (hq : ∀ a b, Q a b → Q' a b) : Keeps D Q' p d :=
  ⟨safe_mono h.safe hq⟩

theorem keeps_done {a : α} (h : ∀ b, D.R d b → Q a b) : Keeps D Q (pure a : Call S A ε α) d := ⟨h⟩

theorem keeps_check {x : Except ε α} (h : ∀ a, x = .ok a → ∀ b, D.R d b → Q a b) :
    Keeps D Q (ofExcept x) d := ⟨safe_ofExcept h⟩

theorem keeps_rejectIf {c : Prop} [Decidable c] {e : ε} {P : Unit → δ → Prop}
    (h : ¬c → ∀ b, D.R d b → P () b) :
    Keeps D P (Call.rejectIf c e : Call S A ε Unit) d := ⟨safe_rejectIf h⟩

theorem keeps_okOr {o : Option α} {e : ε} (h : ∀ a, o = some a → ∀ b, D.R d b → Q a b) :
    Keeps D Q (Call.okOr o e : Call S A ε α) d := ⟨safe_okOr h⟩

theorem keeps_make {s : S} {P : A s → δ → Prop}
    (h : ∀ b e, D.R d b → D.I b → D.C b s → D.I (D.perform e s b).1 ∧ D.R b (D.perform e s b).1 ∧
      ∀ a, (D.perform e s b).2 = .ok a → ∀ c, D.R (D.perform e s b).1 c → P a c) :
    Keeps D P (make s : Call S A ε (A s)) d := ⟨safe_make h⟩

theorem Keeps.quiet (h : Keeps D Q p d) : Quiet D p d := keeps_mono h fun _ _ _ => trivial

/-- What comes before says nothing that matters later. -/
theorem Quiet.then (h : Quiet D p d) (hf : ∀ a b, Keeps D P (f a) b) : Keeps D P (p >>= f) d :=
  keeps_bind h fun a b _ _ => hf a b

theorem quiet_bind (h : Quiet D p d) (hf : ∀ a b, Quiet D (f a) b) : Quiet D (p >>= f) d :=
  h.then hf

theorem quiet_check {x : Except ε α} : Quiet D (ofExcept x) d :=
  keeps_check fun _ _ _ _ => trivial

theorem quiet_rejectIf {c : Prop} [Decidable c] {e : ε} :
    Quiet D (Call.rejectIf c e : Call S A ε Unit) d :=
  keeps_rejectIf fun _ _ _ => trivial

theorem quiet_okOr {o : Option α} {e : ε} : Quiet D (Call.okOr o e : Call S A ε α) d :=
  keeps_okOr fun _ _ _ _ => trivial

theorem quiet_done {a : α} : Quiet D (pure a : Call S A ε α) d := keeps_done fun _ _ => trivial

theorem quiet_make {s : S} (h : ∀ b e, D.R d b → D.I b → D.C b s →
      D.I (D.perform e s b).1 ∧ D.R b (D.perform e s b).1) :
    Quiet D (make s : Call S A ε (A s)) d := by
  apply keeps_make
  intro b e hb hi hc
  obtain ⟨h1, h2⟩ := h b e hb hi hc
  exact ⟨h1, h2, fun _ _ _ _ => trivial⟩

end Rules

section Issued

open Call

variable {S : Type} {A : S → Type} {ε α β : Type}

/-- Every statement of the call meets `P`, and `Q` holds of what it returns, for all answers. -/
def AllIssued (P : S → Prop) (Q : α → Prop) : Call S A ε α → Prop
  | done a => Q a
  | fail _ => True
  | ask s k => P s ∧ ∀ a, AllIssued P Q (k a)

/-- The same, folded up: a call is taken apart by the rules below. -/
structure Issues (P : S → Prop) (Q : α → Prop) (p : Call S A ε α) : Prop where
  all : AllIssued P Q p

variable {P : S → Prop} {Q : α → Prop} {Q' : β → Prop} {p : Call S A ε α} {f : α → Call S A ε β}

theorem issues_bind (h : Issues P Q p) (hf : ∀ a, Q a → Issues P Q' (f a)) :
    Issues P Q' (p >>= f) := by
  constructor
  have hp := h.all
  clear h
  induction p with
  | done a => exact (hf a hp).all
  | fail e => trivial
  | ask s k ih => exact ⟨hp.1, fun a => ih a (hp.2 a)⟩

theorem issues_fail {e : ε} : Issues P Q (fail e : Call S A ε α) := ⟨trivial⟩

theorem issues_check {x : Except ε α} (h : ∀ a, x = .ok a → Q a) :
    Issues P Q (ofExcept x : Call S A ε α) := by
  cases x with
  | ok a => exact ⟨h a rfl⟩
  | error e => exact issues_fail

theorem issues_rejectIf {c : Prop} [Decidable c] {e : ε} {Q : Unit → Prop} (h : ¬c → Q ()) :
    Issues P Q (Call.rejectIf c e : Call S A ε Unit) := by
  apply issues_check
  intro _ hx
  exact h (rejectIf_eq_ok.mp hx)

theorem issues_okOr {o : Option α} {e : ε} (h : ∀ a, o = some a → Q a) :
    Issues P Q (Call.okOr o e : Call S A ε α) := by
  apply issues_check
  intro a hx
  exact h a (okOr_eq_ok.mp hx)

theorem issues_make {s : S} {Q : A s → Prop} (hs : P s) (hQ : ∀ a, Q a) :
    Issues P Q (make s : Call S A ε (A s)) := ⟨hs, hQ⟩

theorem issues_done {a : α} (h : Q a) : Issues P Q (pure a : Call S A ε α) := ⟨h⟩

theorem issues_mono {P' : S → Prop} (h : Issues P Q p) (hP : ∀ s, P s → P' s) : Issues P' Q p := by
  constructor
  have hp := h.all
  clear h
  induction p with
  | done a => exact hp
  | fail e => trivial
  | ask s k ih => exact ⟨hP s hp.1, fun a => ih a (hp.2 a)⟩

/-- A call keeps the discipline if each of its statements does, on its own account. -/
theorem keeps_of_issues {δ E : Type} {D : Discipline S A ε δ E} {d : δ} (h : Issues P Q p)
    (hP : ∀ s, P s → ∀ b e, D.I b → D.C b s →
      D.I (D.perform e s b).1 ∧ D.R b (D.perform e s b).1) : Keeps D (fun a _ => Q a) p d := by
  constructor
  have hp := h.all
  clear h
  induction p generalizing d with
  | done a => exact fun _ _ => hp
  | fail e => trivial
  | ask s k ih =>
    intro b e _ hi hc
    obtain ⟨h1, h2⟩ := hP s hp.1 b e hi hc
    exact ⟨h1, h2, fun a _ => ih a (hp.2 a)⟩

end Issued

section Guarantees

open Call

/-- Statements that keep an invariant and a relation where they meet `C` and the call that makes them
has made sure of `G`. -/
structure Protocol (S : Type) (A : S → Type) (ε δ E : Type) where
  perform : E → (s : S) → δ → δ × Except ε (A s)
  R : δ → δ → Prop
  I : δ → Prop
  C : δ → S → Prop
  G : δ → S → Prop
  refl : ∀ a, R a a
  trans : ∀ a b c, R a b → R b c → R a c
  keeps : ∀ s d e, I d → C d s → G d s → I (perform e s d).1 ∧ R d (perform e s d).1

variable {S : Type} {A : S → Type} {ε α β δ E : Type} (D : Protocol S A ε δ E)

/-- `G` holds of each statement of the call when its turn comes, whatever the others did since; where
the call returns, `Q` holds from then on. -/
def FollowsAll (Q : α → δ → Prop) : Call S A ε α → δ → Prop
  | done a, d => ∀ d', D.R d d' → Q a d'
  | fail _, _ => True
  | ask s k, d => ∀ d' e, D.R d d' → D.I d' → D.C d' s →
      D.G d' s ∧ ∀ a, (D.perform e s d').2 = .ok a → FollowsAll Q (k a) (D.perform e s d').1

/-- The same, folded up. -/
structure Follows (Q : α → δ → Prop) (p : Call S A ε α) (d : δ) : Prop where
  all : FollowsAll D Q p d

variable {D} {Q : α → δ → Prop} {P : β → δ → Prop} {p : Call S A ε α} {f : α → Call S A ε β}
  {d d' : δ}

theorem followsAll_later (h : FollowsAll D Q p d) (hd : D.R d d') : FollowsAll D Q p d' := by
  cases p with
  | done a => exact fun b hb => h b (D.trans _ _ _ hd hb)
  | fail e => trivial
  | ask s k => exact fun b e hb hi hc => h b e (D.trans _ _ _ hd hb) hi hc

theorem follows_bind (h : Follows D Q p d) (hf : ∀ a b, D.R d b → Q a b → Follows D P (f a) b) :
    Follows D P (p >>= f) d := by
  constructor
  have hp := h.all
  clear h
  induction p generalizing d with
  | done a => exact (hf a d (D.refl d) (hp d (D.refl d))).all
  | fail e => trivial
  | ask s k ih =>
    intro b e hb hi hc
    obtain ⟨h1, h2⟩ := hp b e hb hi hc
    have hstep := (D.keeps s b e hi hc h1).2
    refine ⟨h1, fun x hx => ih x ?_ (h2 x hx)⟩
    intro a c hac hq
    exact hf a c (D.trans _ _ _ hb (D.trans _ _ _ hstep hac)) hq

theorem follows_done {a : α} (h : ∀ b, D.R d b → Q a b) :
    Follows D Q (pure a : Call S A ε α) d := ⟨h⟩

theorem follows_fail {e : ε} : Follows D Q (fail e : Call S A ε α) d := ⟨trivial⟩

theorem follows_check {x : Except ε α} (h : ∀ a, x = .ok a → ∀ b, D.R d b → Q a b) :
    Follows D Q (ofExcept x : Call S A ε α) d := by
  cases x with
  | ok a => exact ⟨h a rfl⟩
  | error e => exact follows_fail

theorem follows_rejectIf {c : Prop} [Decidable c] {e : ε} {Q : Unit → δ → Prop}
    (h : ¬c → ∀ b, D.R d b → Q () b) : Follows D Q (Call.rejectIf c e : Call S A ε Unit) d := by
  apply follows_check
  intro _ hx
  exact h (rejectIf_eq_ok.mp hx)

theorem follows_okOr {o : Option α} {e : ε} (h : ∀ a, o = some a → ∀ b, D.R d b → Q a b) :
    Follows D Q (Call.okOr o e : Call S A ε α) d := by
  apply follows_check
  intro a hx
  exact h a (okOr_eq_ok.mp hx)

theorem follows_make {s : S} {Q : A s → δ → Prop}
    (h : ∀ b e, D.R d b → D.I b → D.C b s → D.G b s ∧
      ∀ a, (D.perform e s b).2 = .ok a → ∀ c, D.R (D.perform e s b).1 c → Q a c) :
    Follows D Q (make s : Call S A ε (A s)) d := ⟨h⟩

end Guarantees

section Passing

open Call

variable {S : Type} {A : S → Type} {ε α β : Type}

/-- Every return of the call comes behind a statement that meets `P`. -/
def PassesAll (P : S → Prop) : Call S A ε α → Prop
  | done _ => False
  | fail _ => True
  | ask s k => P s ∨ ∀ a, PassesAll P (k a)

/-- The same, folded up. -/
structure Passes (P : S → Prop) (p : Call S A ε α) : Prop where
  all : PassesAll P p

variable {P : S → Prop} {p : Call S A ε α} {f : α → Call S A ε β}

theorem passes_first (h : Passes P p) : Passes P (p >>= f) := by
  constructor
  have hp := h.all
  clear h
  induction p with
  | done a => exact absurd hp id
  | fail e => trivial
  | ask s k ih =>
    rcases hp with hs | hk
    · exact .inl hs
    · exact .inr fun a => ih a (hk a)

theorem passes_then (hf : ∀ a, Passes P (f a)) : Passes P (p >>= f) := by
  constructor
  induction p with
  | done a => exact (hf a).all
  | fail e => trivial
  | ask s k ih => exact .inr ih

end Passing

section Solitary

open Call

variable {S : Type} {A : S → Type} {ε α β δ E : Type}
  (perform : E → (s : S) → δ → δ × Except ε (A s)) (I : δ → Prop) (C G : δ → S → Prop)

/-- Each statement of the call finds `G` and keeps `I` where it meets `C`, if nothing comes between
them; `Q` holds where the call returns. -/
def AloneAll (Q : α → δ → Prop) : Call S A ε α → δ → Prop
  | done a, d => Q a d
  | fail _, _ => True
  | ask s k, d => I d → C d s → G d s ∧ ∀ e, I (perform e s d).1 ∧
      ∀ a, (perform e s d).2 = .ok a → AloneAll Q (k a) (perform e s d).1

/-- The same, folded up. -/
structure AloneWith (Q : α → δ → Prop) (p : Call S A ε α) (d : δ) : Prop where
  all : AloneAll perform I C G Q p d

/-- Where no statement has to find anything. -/
abbrev Alone (Q : α → δ → Prop) (p : Call S A ε α) (d : δ) : Prop :=
  AloneWith perform I C (fun _ _ => True) Q p d

variable {perform I C G} {P : S → Prop} {Q : α → δ → Prop} {Q' : β → δ → Prop} {p : Call S A ε α}
  {f : α → Call S A ε β} {d : δ}

theorem alone_bind (h : AloneWith perform I C G Q p d)
    (hf : ∀ a b, Q a b → AloneWith perform I C G Q' (f a) b) :
    AloneWith perform I C G Q' (p >>= f) d := by
  constructor
  have hp := h.all
  clear h
  induction p generalizing d with
  | done a => exact (hf a d hp).all
  | fail e => trivial
  | ask s k ih =>
    intro hi hc
    refine ⟨(hp hi hc).1, fun e => ?_⟩
    obtain ⟨h1, h2⟩ := (hp hi hc).2 e
    exact ⟨h1, fun a ha => ih a (h2 a ha)⟩

theorem alone_mono {P : α → δ → Prop} (h : AloneWith perform I C G Q p d)
    (hq : ∀ a b, Q a b → P a b) : AloneWith perform I C G P p d := by
  constructor
  have hp := h.all
  clear h
  induction p generalizing d with
  | done a => exact hq a d hp
  | fail e => trivial
  | ask s k ih =>
    intro hi hc
    refine ⟨(hp hi hc).1, fun e => ?_⟩
    obtain ⟨h1, h2⟩ := (hp hi hc).2 e
    exact ⟨h1, fun a ha => ih a (h2 a ha)⟩

theorem alone_done {a : α} (h : Q a d) : AloneWith perform I C G Q (pure a : Call S A ε α) d := ⟨h⟩

theorem alone_check {x : Except ε α} (h : ∀ a, x = .ok a → Q a d) :
    AloneWith perform I C G Q (ofExcept x : Call S A ε α) d := by
  cases x with
  | ok a => exact ⟨h a rfl⟩
  | error e => exact ⟨trivial⟩

theorem alone_rejectIf {c : Prop} [Decidable c] {e : ε} {Q : Unit → δ → Prop} (h : ¬c → Q () d) :
    AloneWith perform I C G Q (Call.rejectIf c e : Call S A ε Unit) d := by
  apply alone_check
  intro _ hx
  exact h (rejectIf_eq_ok.mp hx)

theorem alone_okOr {o : Option α} {e : ε} (h : ∀ a, o = some a → Q a d) :
    AloneWith perform I C G Q (Call.okOr o e : Call S A ε α) d := by
  apply alone_check
  intro a hx
  exact h a (okOr_eq_ok.mp hx)

theorem alone_make {s : S} {Q : A s → δ → Prop}
    (h : I d → C d s → G d s ∧ ∀ e, I (perform e s d).1 ∧
      ∀ a, (perform e s d).2 = .ok a → Q a (perform e s d).1) :
    AloneWith perform I C G Q (make s : Call S A ε (A s)) d := ⟨h⟩

/-- Statements that find `G` and keep the invariant wherever they are made. -/
theorem alone_of_each {Q : α → Prop} (h : Issues P Q p)
    (hP : ∀ s, P s → ∀ b, I b → C b s → G b s ∧ ∀ e, I (perform e s b).1) :
    AloneWith perform I C G (fun a _ => Q a) p d := by
  constructor
  have hp := h.all
  clear h
  induction p generalizing d with
  | done a => exact hp
  | fail e => trivial
  | ask s k ih =>
    intro hi hc
    obtain ⟨h1, h2⟩ := hP s hp.1 d hi hc
    exact ⟨h1, fun e => ⟨h2 e, fun a _ => ih a (hp.2 a)⟩⟩

/-- Statements that change nothing leave the call where it was. -/
theorem alone_of_issues {Q : α → Prop} (h : Issues P Q p)
    (hP : ∀ s, P s → ∀ b, G b s ∧ ∀ e, (perform e s b).1 = b) :
    AloneWith perform I C G (fun a b => Q a ∧ b = d) p d := by
  constructor
  have hp := h.all
  clear h
  induction p with
  | done a => exact ⟨hp, rfl⟩
  | fail e => trivial
  | ask s k ih =>
    intro hi _
    obtain ⟨h1, h2⟩ := hP s hp.1 d
    refine ⟨h1, fun e => ?_⟩
    rw [h2 e]
    exact ⟨hi, fun a _ => ih a (hp.2 a)⟩

end Solitary

section Serving

variable {S : Type} {A : S → Type} {ε α δ E κ : Type}

/-- The database and the calls made so far. -/
structure Serving (S : Type) (A : S → Type) (ε α δ : Type) where
  db : δ
  calls : List (Call S A ε α)

inductive Turn (κ E : Type) where
  /-- A call comes in. -/
  | begin (c : κ)
  /-- The `i`-th call makes its next statement. -/
  | resume (i : Nat) (e : E)

variable (perform : E → (s : S) → δ → δ × Except ε (A s)) (start : κ → Call S A ε α)

/-- The rest of a call whose statement was answered. -/
def answered {s : S} (k : A s → Call S A ε α) : Except ε (A s) → Call S A ε α
  | .ok a => k a
  | .error e => .fail e

def serve (s : Serving S A ε α δ) : Turn κ E → Option (Serving S A ε α δ × Unit)
  | .begin c => some ({ s with calls := s.calls ++ [start c] }, ())
  | .resume i e =>
    match s.calls[i]? with
    | some (.ask st k) =>
      some ({ db := (perform e st s.db).1,
              calls := s.calls.set i (answered k (perform e st s.db).2) }, ())
    | _ => none

/-- The next statement of the `i`-th call. -/
def nextStatement (s : Serving S A ε α δ) (i : Nat) : Option S :=
  match s.calls[i]? with
  | some (.ask st _) => some st
  | _ => none

/-- The statement that the turn makes meets `C`. -/
def Meets (C : δ → S → Prop) (s : Serving S A ε α δ) : Turn κ E → Prop
  | .begin _ => True
  | .resume i _ => ∀ st, nextStatement s i = some st → C s.db st

theorem meets_resume {C : δ → S → Prop} {s : Serving S A ε α δ} {i : Nat} {e : E} {st : S}
    (h : nextStatement s i = some st) (hc : C s.db st) :
    Meets C s (Turn.resume i e : Turn κ E) := by
  intro st' h'
  rw [h] at h'
  cases h'
  exact hc

variable {perform start} {R : δ → δ → Prop} {I : δ → Prop} {C : δ → S → Prop}

/-- Safe calls keep the invariant, and every database of the run is related to the later ones. -/
theorem safe_serve_invariant {d : δ} {tr : List (Entry (Serving S A ε α δ) (Turn κ E) Unit)}
    {t : Serving S A ε α δ} (hrefl : ∀ a, R a a) (htrans : ∀ a b c, R a b → R b c → R a c)
    (h0 : I d) (hsafe : ∀ c d, I d → Safe perform R I C (fun _ _ => True) (start c) d)
    (hrun : Run (serve perform start) { db := d, calls := [] } tr t)
    (hok : ∀ x ∈ tr, Meets C x.pre x.event) :
    I t.db ∧ ∀ x ∈ tr, I x.pre.db ∧ R x.pre.db t.db := by
  have hinv := hrun.history (C := Meets C)
    (I := fun tr s => (I s.db ∧ ∀ p ∈ s.calls, Safe perform R I C (fun _ _ => True) p s.db) ∧
      ∀ x ∈ tr, I x.pre.db ∧ R x.pre.db s.db)
    ⟨⟨h0, by simp⟩, by simp⟩ ?_ hok
  · exact ⟨hinv.1.1, hinv.2⟩
  · intro tr s e u o _ ⟨⟨hi, hcalls⟩, hpast⟩ hc hstep
    -- what was related to the state before the step is related to the state behind it
    have later : R s.db u.db → ∀ x ∈ tr ++ [⟨s, e, o⟩], I x.pre.db ∧ R x.pre.db u.db := by
      intro hsu x hx
      rcases List.mem_append.mp hx with hmem | hmem
      · exact ⟨(hpast x hmem).1, htrans _ _ _ (hpast x hmem).2 hsu⟩
      · obtain rfl := List.mem_singleton.mp hmem
        exact ⟨hi, hsu⟩
    cases e with
    | begin c =>
      cases hstep
      refine ⟨⟨hi, ?_⟩, later (hrefl s.db)⟩
      intro p hp
      rcases List.mem_append.mp hp with hmem | hmem
      · exact hcalls p hmem
      · rw [List.mem_singleton.mp hmem]
        exact hsafe c s.db hi
    | resume i e =>
      simp only [serve] at hstep
      split at hstep
      · rename_i st k hget
        cases hstep
        have hsaf := hcalls _ (List.mem_of_getElem? hget)
        obtain ⟨h1, h2, h3⟩ := hsaf s.db e (hrefl s.db) hi (hc st (by rw [nextStatement, hget]))
        refine ⟨⟨h1, ?_⟩, later h2⟩
        intro p hp
        rcases List.mem_or_eq_of_mem_set hp with hmem | rfl
        · exact safe_later htrans (hcalls p hmem) h2
        · cases hr : (perform e st s.db).2 with
          | ok a => exact h3 a hr
          | error err => trivial
      · cases hstep

/-- Every statement of a run is one that its call may make. -/
theorem serve_issues {P : S → Prop} {d : δ}
    {tr : List (Entry (Serving S A ε α δ) (Turn κ E) Unit)} {t : Serving S A ε α δ}
    (hstart : ∀ c, Issues P (fun _ => True) (start c))
    (hrun : Run (serve perform start) { db := d, calls := [] } tr t) :
    ∀ x ∈ tr, Meets (fun _ st => P st) x.pre x.event := by
  refine hrun.forall_entry (C := fun _ _ => True)
    (I := fun s => ∀ p ∈ s.calls, AllIssued P (fun _ => True) p) (by simp) ?_ (fun _ _ => trivial)
  intro s e u o hcalls _ hstep
  cases e with
  | begin c =>
    cases hstep
    refine ⟨?_, trivial⟩
    intro p hp
    rcases List.mem_append.mp hp with hmem | hmem
    · exact hcalls p hmem
    · rw [List.mem_singleton.mp hmem]
      exact (hstart c).all
  | resume i e =>
    simp only [serve] at hstep
    split at hstep
    · rename_i st k hget
      cases hstep
      have hissue := hcalls _ (List.mem_of_getElem? hget)
      refine ⟨?_, meets_resume (by rw [nextStatement, hget]) hissue.1⟩
      intro p hp
      rcases List.mem_or_eq_of_mem_set hp with hmem | rfl
      · exact hcalls p hmem
      · cases hr : (perform e st s.db).2 with
        | ok a => exact hissue.2 a
        | error err => trivial
    · cases hstep

/-- Only the call that came in last is resumed. -/
def InTurn (s : Serving S A ε α δ) : Turn κ E → Prop
  | .begin _ => True
  | .resume i _ => i + 1 = s.calls.length

/-- Calls that run one after the other: the invariant holds throughout, and each statement finds what
its call made sure of. -/
theorem serve_alone {G : δ → S → Prop} {d : δ}
    {tr : List (Entry (Serving S A ε α δ) (Turn κ E) Unit)} {t : Serving S A ε α δ} (h0 : I d)
    (hstart : ∀ c d, AloneWith perform I C G (fun _ _ => True) (start c) d)
    (hrun : Run (serve perform start) { db := d, calls := [] } tr t)
    (hturn : ∀ x ∈ tr, InTurn x.pre x.event) (hok : ∀ x ∈ tr, Meets C x.pre x.event) :
    I t.db ∧ ∀ x ∈ tr, I x.pre.db ∧ Meets G x.pre x.event := by
  have hinv := hrun.history (C := fun s e => InTurn s e ∧ Meets C s e)
    (I := fun tr s => (I s.db ∧ ∀ p, s.calls.getLast? = some p →
      AloneAll perform I C G (fun _ _ => True) p s.db) ∧
      ∀ x ∈ tr, I x.pre.db ∧ Meets G x.pre x.event) ⟨⟨h0, by simp⟩, by simp⟩ ?_
      (fun x hx => ⟨hturn x hx, hok x hx⟩)
  · exact ⟨hinv.1.1, hinv.2⟩
  intro tr s e u o _ ⟨⟨hi, hlast⟩, hpast⟩ ⟨hin, hc⟩ hstep
  have past : Meets G s e → ∀ x ∈ tr ++ [⟨s, e, o⟩], I x.pre.db ∧ Meets G x.pre x.event := by
    intro hg x hx
    rcases List.mem_append.mp hx with hmem | hmem
    · exact hpast x hmem
    · obtain rfl := List.mem_singleton.mp hmem
      exact ⟨hi, hg⟩
  cases e with
  | begin c =>
    cases hstep
    refine ⟨⟨hi, ?_⟩, past trivial⟩
    intro p hp
    rw [List.getLast?_concat] at hp
    obtain rfl := Option.some.inj hp
    exact (hstart c s.db).all
  | resume i e =>
    simp only [serve] at hstep
    split at hstep
    · rename_i st k hget
      cases hstep
      have hlen : i + 1 = s.calls.length := hin
      have hthis : s.calls.getLast? = some (.ask st k) := by
        rw [List.getLast?_eq_getElem?, ← hlen, Nat.add_sub_cancel]
        exact hget
      have hnext : nextStatement s i = some st := by rw [nextStatement, hget]
      obtain ⟨hg, hall⟩ := hlast _ hthis hi (hc st hnext)
      obtain ⟨h1, h2⟩ := hall e
      refine ⟨⟨h1, ?_⟩, past (meets_resume hnext hg)⟩
      intro p hp
      have hset : (s.calls.set i (answered k (perform e st s.db).2)).getLast? =
          some (answered k (perform e st s.db).2) := by
        rw [List.getLast?_eq_getElem?, List.length_set, ← hlen, Nat.add_sub_cancel,
          List.getElem?_set_self (by omega)]
      rw [hset] at hp
      obtain rfl := Option.some.inj hp
      cases hr : (perform e st s.db).2 with
      | ok a => exact h2 a hr
      | error err => trivial
    · cases hstep

/-- Calls that keep a discipline, in every run whose statements meet its condition. -/
theorem serve_invariant {D : Discipline S A ε δ E} {start : κ → Call S A ε α} {d : δ}
    {tr : List (Entry (Serving S A ε α δ) (Turn κ E) Unit)} {t : Serving S A ε α δ} (h0 : D.I d)
    (hkeeps : ∀ c d, Quiet D (start c) d)
    (hrun : Run (serve D.perform start) { db := d, calls := [] } tr t)
    (hok : ∀ x ∈ tr, Meets D.C x.pre x.event) :
    D.I t.db ∧ ∀ x ∈ tr, D.I x.pre.db ∧ D.R x.pre.db t.db :=
  safe_serve_invariant D.refl D.trans h0 (fun c d _ => (hkeeps c d).safe) hrun hok

/-- Calls that follow a protocol, in every run whose statements meet its condition: the invariant
holds throughout, later databases are related to earlier ones, and each statement finds what its
call made sure of. -/
theorem serve_follows {D : Protocol S A ε δ E} {start : κ → Call S A ε α} {d : δ}
    {tr : List (Entry (Serving S A ε α δ) (Turn κ E) Unit)} {t : Serving S A ε α δ} (h0 : D.I d)
    (hstart : ∀ c d, Follows D (fun _ _ => True) (start c) d)
    (hrun : Run (serve D.perform start) { db := d, calls := [] } tr t)
    (hok : ∀ x ∈ tr, Meets D.C x.pre x.event) :
    D.I t.db ∧ ∀ x ∈ tr, D.I x.pre.db ∧ D.R x.pre.db t.db ∧ Meets D.G x.pre x.event := by
  have hinv := hrun.history (C := Meets D.C)
    (I := fun tr s => (D.I s.db ∧ ∀ p ∈ s.calls, FollowsAll D (fun _ _ => True) p s.db) ∧
      ∀ x ∈ tr, D.I x.pre.db ∧ D.R x.pre.db s.db ∧ Meets D.G x.pre x.event)
    ⟨⟨h0, by simp⟩, by simp⟩ ?_ hok
  · exact ⟨hinv.1.1, hinv.2⟩
  intro tr s e u o _ ⟨⟨hi, hcalls⟩, hpast⟩ hc hstep
  have later : D.R s.db u.db → Meets D.G s e →
      ∀ x ∈ tr ++ [⟨s, e, o⟩], D.I x.pre.db ∧ D.R x.pre.db u.db ∧ Meets D.G x.pre x.event := by
    intro hsu hg x hx
    rcases List.mem_append.mp hx with hmem | hmem
    · obtain ⟨h1, h2, h3⟩ := hpast x hmem
      exact ⟨h1, D.trans _ _ _ h2 hsu, h3⟩
    · obtain rfl := List.mem_singleton.mp hmem
      exact ⟨hi, hsu, hg⟩
  cases e with
  | begin c =>
    cases hstep
    refine ⟨⟨hi, ?_⟩, later (D.refl s.db) trivial⟩
    intro p hp
    rcases List.mem_append.mp hp with hmem | hmem
    · exact hcalls p hmem
    · rw [List.mem_singleton.mp hmem]
      exact (hstart c s.db).all
  | resume i e =>
    simp only [serve] at hstep
    split at hstep
    · rename_i st k hget
      cases hstep
      have hnext : nextStatement s i = some st := by rw [nextStatement, hget]
      obtain ⟨h1, h2⟩ :=
        hcalls _ (List.mem_of_getElem? hget) s.db e (D.refl s.db) hi (hc st hnext)
      obtain ⟨h3, h4⟩ := D.keeps st s.db e hi (hc st hnext) h1
      refine ⟨⟨h3, ?_⟩, later h4 (meets_resume hnext h1)⟩
      intro p hp
      rcases List.mem_or_eq_of_mem_set hp with hmem | rfl
      · exact followsAll_later (hcalls p hmem) h4
      · cases hr : (D.perform e st s.db).2 with
        | ok a => exact h2 a hr
        | error err => trivial
    · cases hstep

/-- The calls of a run, in the order they came in. -/
def begun (tr : List (Entry (Serving S A ε α δ) (Turn κ E) Unit)) : List κ :=
  tr.filterMap fun x =>
    match x.event with
    | .begin c => some c
    | .resume _ _ => none

theorem begun_exec {start : κ → Call S A ε α} {s t : Serving S A ε α δ} {es : List (Turn κ E)}
    {tr : List (Entry (Serving S A ε α δ) (Turn κ E) Unit)}
    (h : exec (serve perform start) s es = some (tr, t)) :
    begun tr = es.filterMap fun e =>
      match e with
      | .begin c => some c
      | .resume _ _ => none := by
  induction es generalizing s tr with
  | nil =>
    cases h
    rfl
  | cons e es ih =>
    unfold exec at h
    split at h
    · cases h
    · obtain ⟨⟨tr', t'⟩, hx, heq⟩ := Option.map_eq_some_iff.mp h
      cases heq
      unfold begun
      rw [List.filterMap_cons, List.filterMap_cons]
      cases e with
      | begin c => exact congrArg (c :: ·) (ih hx)
      | resume i m => exact ih hx

/-- The result of the `i`-th call. -/
theorem done_of_result {s : Serving S A ε α δ} {i : Nat} {a : α}
    (h : (s.calls[i]?).bind Call.result = some a) : s.calls[i]? = some (.done a) := by
  obtain ⟨p, hp, hresult⟩ := Option.bind_eq_some_iff.mp h
  rw [hp, Call.result_eq_some hresult]

/-- The step in which the `i`-th call makes the statement, and is answered. -/
def Made (perform : E → (s : S) → δ → δ × Except ε (A s)) (i : Nat) (st : S)
    (x : Entry (Serving S A ε α δ) (Turn κ E) Unit) : Prop :=
  ∃ e a, x.event = .resume i e ∧ nextStatement x.pre i = some st ∧
    (perform e st x.pre.db).2 = .ok a

/-- A call that returned has made the statement that it cannot return without. -/
theorem serve_passes {P : κ → S → Prop} {d : δ}
    {tr : List (Entry (Serving S A ε α δ) (Turn κ E) Unit)} {t : Serving S A ε α δ}
    (hstart : ∀ c, Passes (P c) (start c))
    (hrun : Run (serve perform start) { db := d, calls := [] } tr t) {i : Nat} {c : κ} {a : α}
    (hbegun : (begun tr)[i]? = some c) (hdone : t.calls[i]? = some (.done a)) :
    ∃ x ∈ tr, ∃ st, P c st ∧ Made perform i st x := by
  have hinv := hrun.history (C := fun _ _ => True)
    (I := fun tr s => (begun tr).length = s.calls.length ∧ ∀ i c p, (begun tr)[i]? = some c →
      s.calls[i]? = some p → PassesAll (P c) p ∨ ∃ x ∈ tr, ∃ st, P c st ∧ Made perform i st x)
    ⟨rfl, by simp [begun]⟩ ?_ (fun _ _ => trivial)
  · rcases hinv.2 i c _ hbegun hdone with hpass | hmade
    · exact absurd hpass id
    · exact hmade
  intro tr s e u o _ ⟨hlength, hcalls⟩ _ hstep
  -- what was made stays made
  have kept : ∀ i c, (∃ x ∈ tr, ∃ st, P c st ∧ Made perform i st x) →
      ∃ x ∈ tr ++ [⟨s, e, o⟩], ∃ st, P c st ∧ Made perform i st x := by
    rintro i c ⟨x, hx, hmade⟩
    exact ⟨x, List.mem_append_left _ hx, hmade⟩
  cases e with
  | begin c =>
    cases hstep
    have hlast : begun (tr ++ [⟨s, .begin c, ()⟩]) = begun tr ++ [c] := by
      simp [begun]
    rw [hlast]
    refine ⟨by simp [hlength], ?_⟩
    intro i c' p hc' hp
    by_cases hi : i < s.calls.length
    · rw [List.getElem?_append_left (by omega)] at hc'
      rw [List.getElem?_append_left hi] at hp
      rcases hcalls i c' p hc' hp with hpass | hmade
      · exact .inl hpass
      · exact .inr (kept i c' hmade)
    · rw [List.getElem?_append_right (by omega)] at hc' hp
      rw [hlength] at hc'
      obtain rfl := List.mem_singleton.mp (List.mem_of_getElem? hc')
      obtain rfl := List.mem_singleton.mp (List.mem_of_getElem? hp)
      exact .inl (hstart c').all
  | resume j e =>
    simp only [serve] at hstep
    split at hstep
    · rename_i st k hget
      cases hstep
      have hsame : begun (tr ++ [⟨s, .resume j e, ()⟩]) = begun tr := by
        simp [begun]
      rw [hsame]
      refine ⟨by rw [List.length_set, hlength], ?_⟩
      intro i c p hc hp
      by_cases hij : j = i
      · obtain rfl := hij
        have hlt : j < s.calls.length := (List.getElem?_eq_some_iff.mp hget).1
        rw [List.getElem?_set_self hlt] at hp
        obtain rfl := Option.some.inj hp
        rcases hcalls j c _ hc hget with hpass | hmade
        · cases hr : (perform e st s.db).2 with
          | error err => exact .inl trivial
          | ok a =>
            rcases hpass with hst | hk
            · refine .inr ⟨⟨s, .resume j e, ()⟩, List.mem_append_right _ List.mem_cons_self, st, hst,
                e, a, rfl, ?_, hr⟩
              rw [nextStatement, hget]
            · exact .inl (hk a)
        · exact .inr (kept j c hmade)
      · rw [List.getElem?_set_ne hij] at hp
        rcases hcalls i c p hc hp with hpass | hmade
        · exact .inl hpass
        · exact .inr (kept i c hmade)
    · cases hstep

/-- A run of one call, with nothing between its statements. -/
theorem serve_single {Q : α → δ → Prop} {d : δ} {c : κ}
    {tr : List (Entry (Serving S A ε α δ) (Turn κ E) Unit)} {t : Serving S A ε α δ}
    (hstart : Alone perform (fun _ => True) (fun _ _ => True) Q (start c) d)
    (hrun : Run (serve perform start) { db := d, calls := [] } tr t) (hbegun : begun tr = [c])
    {a : α} (hdone : t.calls[0]? = some (.done a)) : Q a t.db := by
  have hinv := hrun.history (C := fun _ _ => True)
    (I := fun tr s => (begun tr = [] → s = { db := d, calls := [] }) ∧
      (begun tr = [c] → ∃ p, s.calls = [p] ∧
        AloneAll perform (fun _ => True) (fun _ _ => True) (fun _ _ => True) Q p s.db))
    ⟨fun _ => rfl, fun h => (by cases h)⟩ ?_ (fun _ _ => trivial)
  · obtain ⟨p, hcalls, halone⟩ := hinv.2 hbegun
    rw [hcalls] at hdone
    obtain rfl := Option.some.inj hdone
    exact halone
  intro tr s e u o _ ⟨hnone, hone⟩ _ hstep
  cases e with
  | begin c' =>
    cases hstep
    have hlast : begun (tr ++ [⟨s, .begin c', ()⟩]) = begun tr ++ [c'] := by
      simp [begun]
    rw [hlast]
    refine ⟨fun h => absurd h (by simp), ?_⟩
    intro h
    have hempty : begun tr = [] := List.eq_nil_of_length_eq_zero (by
      have hlength := congrArg List.length h
      rw [List.length_append] at hlength
      simpa using hlength)
    rw [hempty, List.nil_append, List.cons.injEq] at h
    obtain rfl := h.1
    rw [hnone hempty]
    exact ⟨start c', rfl, hstart.all⟩
  | resume i e =>
    have hsame : begun (tr ++ [⟨s, .resume i e, o⟩]) = begun tr := by
      simp [begun]
    rw [hsame]
    simp only [serve] at hstep
    split at hstep
    · rename_i st k hget
      cases hstep
      refine ⟨fun h => ?_, fun h => ?_⟩
      · rw [hnone h] at hget
        cases hget
      · obtain ⟨p, hcalls, halone⟩ := hone h
        rw [hcalls] at hget
        have hi : i = 0 := by
          have hlt := (List.getElem?_eq_some_iff.mp hget).1
          simpa using hlt
        obtain rfl := hi
        obtain rfl := Option.some.inj hget
        refine ⟨answered k (perform e st s.db).2, by rw [hcalls]; rfl, ?_⟩
        cases hr : (perform e st s.db).2 with
        | ok a => exact ((halone trivial trivial).2 e).2 a hr
        | error err => trivial
    · cases hstep

end Serving

end Lib
