import Mathlib.Data.List.Basic

/-!
# Yuance.Lib.Streams

Stages of a stream. A stage takes a chunk, puts out what it makes of it, and goes to another state
or fails; it is lawful where a chunk may be cut anywhere.

* `Stage.ofStep`: the stage that takes one symbol after the other.
* `Stage.comp`: one stage behind another.
* `ofStep_lawful`, `comp_lawful`: these are lawful.
-/

namespace Lib

/-- Goes from state to state with chunks of `α`, puts out `β` and may fail with `φ`. -/
structure Stage (σ α β φ : Type) where
  start : σ
  feed : σ → List α → List β × Except φ σ

variable {σ τ α β γ φ : Type}

/-- What comes out before `q` is kept, and the rest is done from the state it has led to. -/
def andThen (out : List β) (next : Except φ σ) (rest : σ → List β × Except φ τ) :
    List β × Except φ τ :=
  match next with
  | .error f => (out, .error f)
  | .ok s => (out ++ (rest s).1, (rest s).2)

theorem andThen_ok (out : List β) (s : σ) (rest : σ → List β × Except φ τ) :
    andThen out (.ok s) rest = (out ++ (rest s).1, (rest s).2) := rfl

theorem andThen_error (out : List β) (f : φ) (rest : σ → List β × Except φ τ) :
    andThen out (.error f) rest = (out, .error f) := rfl

theorem andThen_assoc {ρ : Type} (out : List β) (next : Except φ σ)
    (first : σ → List β × Except φ τ) (second : τ → List β × Except φ ρ) :
    andThen (andThen out next first).1 (andThen out next first).2 second
      = andThen out next fun s => andThen (first s).1 (first s).2 second := by
  cases next with
  | error f => rfl
  | ok s =>
    rw [andThen_ok, andThen_ok]
    dsimp only
    cases (first s).2 with
    | error f => rfl
    | ok t => rw [andThen_ok, andThen_ok, List.append_assoc]

namespace Stage

structure Lawful (S : Stage σ α β φ) : Prop where
  feed_nil : ∀ s, S.feed s [] = ([], .ok s)
  feed_append : ∀ s a b, S.feed s (a ++ b)
    = andThen (S.feed s a).1 (S.feed s a).2 fun t => S.feed t b

/-! ## Symbol by symbol -/

def feedSteps (step : σ → α → List β × Except φ σ) (s : σ) : List α → List β × Except φ σ
  | [] => ([], .ok s)
  | a :: rest => andThen (step s a).1 (step s a).2 fun t => feedSteps step t rest

def ofStep (start : σ) (step : σ → α → List β × Except φ σ) : Stage σ α β φ where
  start := start
  feed := feedSteps step

theorem ofStep_lawful (start : σ) (step : σ → α → List β × Except φ σ) :
    (ofStep start step).Lawful where
  feed_nil := fun _ => rfl
  feed_append := by
    intro s a b
    change feedSteps step s (a ++ b)
      = andThen (feedSteps step s a).1 (feedSteps step s a).2 fun t => feedSteps step t b
    induction a generalizing s with
    | nil => rfl
    | cons x a ih =>
      rw [List.cons_append, feedSteps, feedSteps, andThen_assoc]
      congr 1
      funext t
      exact ih t

/-! ## One failure for all -/

def failWith {ψ : Type} (f : ψ) (S : Stage σ α β φ) : Stage σ α β ψ where
  start := S.start
  feed s a := ((S.feed s a).1, (S.feed s a).2.mapError fun _ => f)

theorem failWith_lawful {ψ : Type} (f : ψ) {S : Stage σ α β φ} (hS : S.Lawful) :
    (failWith f S).Lawful where
  feed_nil := by
    intro s
    unfold failWith
    dsimp only
    rw [hS.feed_nil]
    rfl
  feed_append := by
    intro s a b
    unfold failWith
    dsimp only
    rw [hS.feed_append]
    cases (S.feed s a).2 with
    | error g => rfl
    | ok t => rfl

/-! ## One behind the other -/

/-- The failure of the second stage comes first, since it is at what was put out before. -/
def comp (S : Stage σ α β φ) (T : Stage τ β γ φ) : Stage (σ × τ) α γ φ where
  start := (S.start, T.start)
  feed s a :=
    ((T.feed s.2 (S.feed s.1 a).1).1,
      match (T.feed s.2 (S.feed s.1 a).1).2, (S.feed s.1 a).2 with
      | .error f, _ => .error f
      | .ok _, .error f => .error f
      | .ok t, .ok u => .ok (u, t))

theorem comp_lawful {S : Stage σ α β φ} {T : Stage τ β γ φ} (hS : S.Lawful) (hT : T.Lawful) :
    (comp S T).Lawful where
  feed_nil := by
    intro s
    unfold comp
    dsimp only
    rw [hS.feed_nil]
    dsimp only
    rw [hT.feed_nil]
  feed_append := by
    intro s a b
    unfold comp
    dsimp only
    rw [hS.feed_append]
    cases hfirst : (S.feed s.1 a).2 with
    | error f =>
      rw [andThen_error]
      dsimp only
      cases (T.feed s.2 (S.feed s.1 a).1).2 with
      | error g => rfl
      | ok t => rfl
    | ok u =>
      rw [andThen_ok]
      dsimp only
      rw [hT.feed_append]
      cases (T.feed s.2 (S.feed s.1 a).1).2 with
      | error g => rfl
      | ok t => rfl

end Stage
end Lib
