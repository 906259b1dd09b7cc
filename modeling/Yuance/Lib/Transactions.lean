import Yuance.Lib.Except

/-!
# Yuance.Lib.Transactions

A transaction on tables `D`: statements one after another, each of which may break. At its end what
was done is kept or taken back, as its result says.

* `Tx`, `Tx.statement`: the faults say which statements break.
* `Tx.atomically`: the transaction between its `BEGIN` and its `COMMIT` or `ROLLBACK`.
* `Concludes`: from these tables the transaction ends with a value and with tables as `Q` says, or
  with an error and with tables as `E` says, whatever breaks. The rules follow the way it is put
  together.
* `Concludes.atomically`: what a transaction leaves behind an error.
* `Returns`, `Fails`: what it does when nothing breaks.
* `Moves R p`: the tables behind `p` are related to those before it by `R`, which is reflexive and
  transitive, whatever is returned and whatever breaks.
-/

namespace Lib

/-- Whether the `n`-th statement breaks. -/
abbrev Faults := Nat → Bool

/-- From the number of statements made before and the tables to the same behind it, and a result. -/
def Tx (D ε α : Type) := Faults → Nat → D → Nat × D × Except ε α

variable {D ε α β : Type}

namespace Tx

def done (a : α) : Tx D ε α := fun _ n d => (n, d, .ok a)

def fail (e : ε) : Tx D ε α := fun _ n d => (n, d, .error e)

def bind (p : Tx D ε α) (f : α → Tx D ε β) : Tx D ε β := fun faults n d =>
  match p faults n d with
  | (n', d', .ok a) => f a faults n' d'
  | (n', d', .error e) => (n', d', .error e)

instance : Monad (Tx D ε) where
  pure := done
  bind := bind

def ofExcept : Except ε α → Tx D ε α
  | .ok a => done a
  | .error e => fail e

/-- `if c { return Err(e) }`. -/
def rejectIf (c : Prop) [Decidable c] (e : ε) : Tx D ε Unit := ofExcept (Lib.rejectIf c e)

/-- `value.ok_or(e)?`. -/
def okOr (value : Option α) (e : ε) : Tx D ε α := ofExcept (Lib.okOr value e)

/-- A statement that returns `broken` where it breaks, and else does what `f` says. -/
def statement (broken : ε) (f : D → D × Except ε α) : Tx D ε α := fun faults n d =>
  if faults n then (n + 1, d, .error broken) else (n + 1, f d)

/-- `SELECT`. -/
def select (broken : ε) (f : D → α) : Tx D ε α := statement broken fun d => (d, .ok (f d))

/-- A statement that writes. -/
def execute (broken : ε) (f : D → D) : Tx D ε Unit := statement broken fun d => (f d, .ok ())

/-- A transaction on a part of the tables. -/
def zoom {D' : Type} (get : D → D') (put : D → D' → D) (p : Tx D' ε α) : Tx D ε α :=
  fun faults n d =>
    match p faults n (get d) with
    | (n', d', r) => (n', put d d', r)

/-- `p` between `BEGIN` and its end, at which `commits` says whether what it did is kept. -/
def atomically (broken : ε) (commits : Except ε α → Bool) (p : Tx D ε α) : Tx D ε α :=
  fun faults n d =>
    if faults n then (n + 1, d, .error broken)
    else
      match p faults (n + 1) d with
      | (n', d', r) =>
        if faults n' then (n' + 1, d, .error broken)
        else (n' + 1, if commits r then d' else d, r)

end Tx

/-- From the tables `d`, whatever breaks. -/
structure Concludes (p : Tx D ε α) (d : D) (Q : D → α → Prop) (E : D → ε → Prop) : Prop where
  ok : ∀ {faults n n' d' a}, p faults n d = (n', d', .ok a) → Q d' a
  error : ∀ {faults n n' d' e}, p faults n d = (n', d', .error e) → E d' e

namespace Concludes

open Tx

variable {d : D} {Q Q' : D → α → Prop} {E E' : D → ε → Prop} {R : D → β → Prop}

theorem done {a : α} (h : Q d a) : Concludes (pure a : Tx D ε α) d Q E where
  ok hrun := by
    cases hrun
    exact h
  error hrun := nomatch hrun

theorem fail {e : ε} (h : E d e) : Concludes (Tx.fail e : Tx D ε α) d Q E where
  ok hrun := nomatch hrun
  error hrun := by
    cases hrun
    exact h

theorem bind_eq (p : Tx D ε α) (f : α → Tx D ε β) : (p >>= f) = Tx.bind p f := rfl

theorem bind {p : Tx D ε α} {f : α → Tx D ε β} (hp : Concludes p d Q E)
    (hf : ∀ d' a, Q d' a → Concludes (f a) d' R E) : Concludes (p >>= f) d R E := by
  rw [bind_eq]
  constructor
  · intro faults n n' d' b hrun
    unfold Tx.bind at hrun
    split at hrun
    · rename_i hfirst
      exact (hf _ _ (hp.ok hfirst)).ok hrun
    · cases hrun
  · intro faults n n' d' e hrun
    unfold Tx.bind at hrun
    split at hrun
    · rename_i hfirst
      exact (hf _ _ (hp.ok hfirst)).error hrun
    · rename_i hfirst
      cases hrun
      exact hp.error hfirst

theorem mono {p : Tx D ε α} (h : Concludes p d Q E) (hQ : ∀ d' a, Q d' a → Q' d' a)
    (hE : ∀ d' e, E d' e → E' d' e) : Concludes p d Q' E' where
  ok hrun := hQ _ _ (h.ok hrun)
  error hrun := hE _ _ (h.error hrun)

/-! ### A step, and what follows -/

variable {p : Tx D ε α} {k : α → Tx D ε β} {e broken : ε}

theorem ofExcept {x : Except ε α} (herror : ∀ e, x = .error e → E d e)
    (hok : ∀ a, x = .ok a → Q d a) :
    Concludes (Tx.ofExcept x : Tx D ε α) d Q E := by
  cases x with
  | ok a => exact done (hok a rfl)
  | error e => exact fail (herror e rfl)

theorem ofExcept_bind {x : Except ε α} (herror : ∀ e, x = .error e → E d e)
    (hk : ∀ a, x = .ok a → Concludes (k a) d R E) : Concludes (Tx.ofExcept x >>= k) d R E := by
  refine bind (ofExcept (Q := fun d' a => d' = d ∧ x = .ok a) herror fun a ha => ⟨rfl, ha⟩) ?_
  rintro d' a ⟨rfl, ha⟩
  exact hk a ha

theorem rejectIf {c : Prop} {_ : Decidable c} {Q : D → Unit → Prop} (herror : c → E d e)
    (hok : ¬c → Q d ()) : Concludes (Tx.rejectIf c e : Tx D ε Unit) d Q E := by
  refine ofExcept ?_ ?_
  · intro e' he'
    by_cases hc : c
    · rw [rejectIf_pos hc] at he'
      cases he'
      exact herror hc
    · rw [rejectIf_neg hc] at he'
      cases he'
  · intro u hu
    exact hok (rejectIf_eq_ok.mp hu)

theorem rejectIf_bind {c : Prop} {_ : Decidable c} {k : Unit → Tx D ε β} (herror : c → E d e)
    (hk : ¬c → Concludes (k ()) d R E) : Concludes (Tx.rejectIf c e >>= k) d R E := by
  refine bind (Q := fun d' _ => d' = d ∧ ¬c) (rejectIf herror fun hc => ⟨rfl, hc⟩) ?_
  rintro d' _ ⟨rfl, hc⟩
  exact hk hc

theorem okOr_bind {value : Option α} (herror : value = none → E d e)
    (hk : ∀ a, value = some a → Concludes (k a) d R E) :
    Concludes (Tx.okOr value e >>= k) d R E := by
  refine ofExcept_bind ?_ fun a ha => hk a (okOr_eq_ok.mp ha)
  intro e' he'
  cases value with
  | none =>
    cases he'
    exact herror rfl
  | some a => cases he'

theorem statement {f : D → D × Except ε α} (hbroken : E d broken)
    (herror : ∀ e, (f d).2 = .error e → E (f d).1 e) (hok : ∀ a, (f d).2 = .ok a → Q (f d).1 a) :
    Concludes (Tx.statement broken f) d Q E := by
  constructor
  · intro faults n n' d' a hrun
    unfold Tx.statement at hrun
    split at hrun
    · cases hrun
    · obtain ⟨_, hf⟩ := Prod.mk.inj hrun
      rw [hf] at hok
      exact hok a rfl
  · intro faults n n' d' e hrun
    unfold Tx.statement at hrun
    split at hrun
    · cases hrun
      exact hbroken
    · obtain ⟨_, hf⟩ := Prod.mk.inj hrun
      rw [hf] at herror
      exact herror e rfl

theorem statement_bind {f : D → D × Except ε α} (hbroken : E d broken)
    (herror : ∀ e, (f d).2 = .error e → E (f d).1 e)
    (hk : ∀ a, (f d).2 = .ok a → Concludes (k a) (f d).1 R E) :
    Concludes (Tx.statement broken f >>= k) d R E := by
  refine bind (Q := fun d' a => d' = (f d).1 ∧ (f d).2 = .ok a)
    (statement hbroken herror fun a ha => ⟨rfl, ha⟩) ?_
  rintro d' a ⟨rfl, ha⟩
  exact hk a ha

theorem select_bind {f : D → α} (hbroken : E d broken) (hk : Concludes (k (f d)) d R E) :
    Concludes (Tx.select broken f >>= k) d R E := by
  refine statement_bind hbroken (fun _ h => nomatch h) ?_
  rintro a ⟨⟩
  exact hk

theorem execute_bind {f : D → D} {k : Unit → Tx D ε β} (hbroken : E d broken)
    (hk : Concludes (k ()) (f d) R E) : Concludes (Tx.execute broken f >>= k) d R E :=
  statement_bind hbroken (fun _ h => nomatch h) fun _ _ => hk

theorem zoom {D' : Type} {get : D → D'} {put : D → D' → D} {p : Tx D' ε α}
    (hp : Concludes p (get d) (fun d' a => Q (put d d') a) fun d' e => E (put d d') e) :
    Concludes (Tx.zoom get put p) d Q E := by
  constructor
  · intro faults n n' d₁ a hrun
    unfold Tx.zoom at hrun
    rcases hp' : p faults n (get d) with ⟨n₂, d₂, r⟩
    rw [hp'] at hrun
    cases hrun
    exact hp.ok hp'
  · intro faults n n' d₁ e hrun
    unfold Tx.zoom at hrun
    rcases hp' : p faults n (get d) with ⟨n₂, d₂, r⟩
    rw [hp'] at hrun
    cases hrun
    exact hp.error hp'

/-- Behind an error either nothing was done, or the error is one that commits. -/
theorem atomically {broken : ε} {commits : Except ε α → Bool} {p : Tx D ε α} (hbroken : E d broken)
    (hrolled : ∀ e, commits (.error e) = false → E d e)
    (hp : Concludes p d (fun d' a => Q (if commits (.ok a) then d' else d) a)
      (fun d' e => commits (.error e) = true → E d' e)) :
    Concludes (Tx.atomically broken commits p) d Q E := by
  constructor
  · intro faults n n' d' a hrun
    unfold Tx.atomically at hrun
    split at hrun
    · cases hrun
    · rcases hp' : p faults (n + 1) d with ⟨n₁, d₁, r⟩
      rw [hp'] at hrun
      dsimp only at hrun
      split at hrun
      · cases hrun
      · cases hrun
        exact hp.ok hp'
  · intro faults n n' d' e hrun
    unfold Tx.atomically at hrun
    split at hrun
    · cases hrun
      exact hbroken
    · rcases hp' : p faults (n + 1) d with ⟨n₁, d₁, r⟩
      rw [hp'] at hrun
      dsimp only at hrun
      split at hrun
      · cases hrun
        exact hbroken
      · cases hrun
        by_cases hcommits : commits (.error e) = true
        · rw [if_pos hcommits]
          exact hp.error hp' hcommits
        · rw [if_neg hcommits]
          exact hrolled e (Bool.eq_false_iff.mpr hcommits)

end Concludes

/-- With no statement breaking, the transaction returns `a` and leaves the tables `d'`. -/
structure Returns (p : Tx D ε α) (d d' : D) (a : α) : Prop where
  run : ∀ n, ∃ n', p (fun _ => false) n d = (n', d', .ok a)

namespace Returns

variable {d d' d'' : D} {p : Tx D ε α} {f : α → Tx D ε β} {a : α} {b : β}

theorem done : Returns (pure a : Tx D ε α) d d a := ⟨fun n => ⟨n, rfl⟩⟩

theorem bind (hp : Returns p d d' a) (hf : Returns (f a) d' d'' b) : Returns (p >>= f) d d'' b := by
  constructor
  intro n
  obtain ⟨n', hp⟩ := hp.run n
  obtain ⟨n'', hf⟩ := hf.run n'
  refine ⟨n'', ?_⟩
  rw [Concludes.bind_eq]
  unfold Tx.bind
  rw [hp]
  exact hf

theorem rejectIf {c : Prop} {_ : Decidable c} {e : ε} (h : ¬c) :
    Returns (Tx.rejectIf c e : Tx D ε Unit) d d () := by
  constructor
  intro n
  refine ⟨n, ?_⟩
  unfold Tx.rejectIf
  rw [rejectIf_neg h]
  rfl

theorem ofExcept {x : Except ε α} (h : x = .ok a) : Returns (Tx.ofExcept x : Tx D ε α) d d a := by
  rw [h]
  exact done

theorem statement {broken : ε} {g : D → D × Except ε α} (h : (g d).2 = .ok a) :
    Returns (Tx.statement broken g) d (g d).1 a :=
  ⟨fun n => ⟨n + 1, Prod.ext rfl (Prod.ext rfl h)⟩⟩

theorem select {broken : ε} {g : D → α} : Returns (Tx.select broken g) d d (g d) :=
  ⟨fun n => ⟨n + 1, rfl⟩⟩

theorem execute {broken : ε} {g : D → D} : Returns (Tx.execute broken g) d (g d) () :=
  ⟨fun n => ⟨n + 1, rfl⟩⟩

theorem atomically {broken : ε} {commits : Except ε α → Bool} (hp : Returns p d d' a)
    (hcommits : commits (.ok a) = true) : Returns (Tx.atomically broken commits p) d d' a := by
  constructor
  intro n
  obtain ⟨n', hp⟩ := hp.run (n + 1)
  refine ⟨n' + 1, ?_⟩
  unfold Tx.atomically
  rw [if_neg Bool.false_ne_true, hp]
  dsimp only
  rw [if_neg Bool.false_ne_true, if_pos hcommits]

end Returns

/-- From every tables to related ones. -/
def Moves (R : D → D → Prop) (p : Tx D ε α) : Prop :=
  ∀ d, Concludes p d (fun d' _ => R d d') fun d' _ => R d d'

namespace Moves

variable {D' : Type} {R : D → D → Prop} {p : Tx D ε α} {broken : ε}

theorem bind [IsTrans D R] {k : α → Tx D ε β} (hp : Moves R p) (hk : ∀ a, Moves R (k a)) :
    Moves R (p >>= k) := by
  intro d
  refine Concludes.bind (hp d) fun d' a hd' => ?_
  exact (hk a d').mono (fun _ _ h => Trans.trans hd' h) fun _ _ h => Trans.trans hd' h

theorem zoom {S : D' → D' → Prop} {get : D → D'} {put : D → D' → D} {p : Tx D' ε α}
    (hS : ∀ d d', S (get d) d' → R d (put d d')) (hp : Moves S p) :
    Moves R (Tx.zoom get put p) :=
  fun d => Concludes.zoom ((hp (get d)).mono (fun _ _ h => hS _ _ h) fun _ _ h => hS _ _ h)

variable [Std.Refl R]

theorem done (a : α) : Moves R (pure a : Tx D ε α) := fun d => Concludes.done (refl d)

theorem fail (e : ε) : Moves R (Tx.fail e : Tx D ε α) := fun d => Concludes.fail (refl d)

theorem ofExcept (x : Except ε α) : Moves R (Tx.ofExcept x : Tx D ε α) :=
  fun d => Concludes.ofExcept (fun _ _ => refl d) fun _ _ => refl d

theorem rejectIf (c : Prop) [Decidable c] (e : ε) : Moves R (Tx.rejectIf c e : Tx D ε Unit) :=
  ofExcept _

theorem okOr (value : Option α) (e : ε) : Moves R (Tx.okOr value e : Tx D ε α) := ofExcept _

theorem statement {f : D → D × Except ε α} (hf : ∀ d, R d (f d).1) :
    Moves R (Tx.statement broken f) :=
  fun d => Concludes.statement (refl d) (fun _ _ => hf d) fun _ _ => hf d

theorem select (f : D → α) : Moves R (Tx.select broken f) := statement refl

theorem execute {f : D → D} (hf : ∀ d, R d (f d)) : Moves R (Tx.execute broken f) := statement hf

theorem atomically {commits : Except ε α → Bool} (hp : Moves R p) :
    Moves R (Tx.atomically broken commits p) := by
  intro d
  refine Concludes.atomically (refl d) (fun _ _ => refl d) ((hp d).mono ?_ ?_)
  · intro d' a hd'
    split
    · exact hd'
    · exact refl d
  · exact fun _ _ hd' _ => hd'

end Moves

/-- With no statement breaking, the transaction ends with the error `e` and leaves the tables `d'`. -/
structure Fails (p : Tx D ε α) (d d' : D) (e : ε) : Prop where
  run : ∀ n, ∃ n', p (fun _ => false) n d = (n', d', .error e)

namespace Fails

variable {d d' d'' : D} {p : Tx D ε α} {f : α → Tx D ε β} {a : α} {e : ε}

theorem fail : Fails (Tx.fail e : Tx D ε α) d d e := ⟨fun n => ⟨n, rfl⟩⟩

theorem behind (hp : Returns p d d' a) (hf : Fails (f a) d' d'' e) : Fails (p >>= f) d d'' e := by
  constructor
  intro n
  obtain ⟨n', hp⟩ := hp.run n
  obtain ⟨n'', hf⟩ := hf.run n'
  refine ⟨n'', ?_⟩
  rw [Concludes.bind_eq]
  unfold Tx.bind
  rw [hp]
  exact hf

theorem atomically {broken : ε} {commits : Except ε α → Bool} (hp : Fails p d d' e)
    (hcommits : commits (.error e) = true) : Fails (Tx.atomically broken commits p) d d' e := by
  constructor
  intro n
  obtain ⟨n', hp⟩ := hp.run (n + 1)
  refine ⟨n' + 1, ?_⟩
  unfold Tx.atomically
  rw [if_neg Bool.false_ne_true, hp]
  dsimp only
  rw [if_neg Bool.false_ne_true, if_pos hcommits]

end Fails

end Lib
