import Yuance.Lib.Calls

/-!
# Yuance.Lib.Phases

What a call has done so far, seen from outside: each statement that it makes, with its answer, moves
it from one phase to the next. The phases of the calls of a run are a function of the run; conditions
on a run may speak of them.

* `Guide`: the phases, and what a call may do in each.
* `Walks`: the call keeps to its phases.
* `serve_phases`: the calls of a run are in the phases that the run says.
* `serve_observed`: induction over a run, with the phases of its calls.
-/

namespace Lib

/-- The phases of calls. -/
structure Guide (S : Type) (A : S → Type) (ε κ Q : Type) where
  begin : κ → Q
  /-- The phase behind a statement and its answer. -/
  next : Q → (s : S) → Except ε (A s) → Q
  /-- The statements that a call may make in a phase. -/
  allows : Q → S → Prop
  /-- The phases that a call may fail in. -/
  fails : Q → Prop
  /-- The phases that a call may return in. -/
  returns : Q → Prop

section Walking

open Call

variable {S : Type} {A : S → Type} {ε κ Q α β : Type} (G : Guide S A ε κ Q)

/-- The call does in each phase what it may; `R` holds where it returns. -/
def WalksAll (R : α → Q → Prop) : Call S A ε α → Q → Prop
  | done a, q => R a q
  | fail _, q => G.fails q
  | ask s k, q => G.allows q s ∧ (∀ e, G.fails (G.next q s (.error e))) ∧
      ∀ a, WalksAll R (k a) (G.next q s (.ok a))

/-- The same, folded up. -/
structure Walks (R : α → Q → Prop) (p : Call S A ε α) (q : Q) : Prop where
  all : WalksAll G R p q

variable {G} {R : α → Q → Prop} {P : β → Q → Prop} {p : Call S A ε α} {f : α → Call S A ε β} {q : Q}

theorem walks_bind (h : Walks G R p q) (hf : ∀ a q', R a q' → Walks G P (f a) q') :
    Walks G P (p >>= f) q := by
  constructor
  have hp := h.all
  clear h
  induction p generalizing q with
  | done a => exact (hf a q hp).all
  | fail e => exact hp
  | ask s k ih => exact ⟨hp.1, hp.2.1, fun a => ih a (hp.2.2 a)⟩

theorem walks_mono {P : α → Q → Prop} (h : Walks G R p q) (hr : ∀ a q', R a q' → P a q') :
    Walks G P p q := by
  constructor
  have hp := h.all
  clear h
  induction p generalizing q with
  | done a => exact hr a q hp
  | fail e => exact hp
  | ask s k ih => exact ⟨hp.1, hp.2.1, fun a => ih a (hp.2.2 a)⟩

theorem walks_done {a : α} (h : R a q) : Walks G R (pure a : Call S A ε α) q := ⟨h⟩

theorem walks_fail {e : ε} (h : G.fails q) : Walks G R (fail e : Call S A ε α) q := ⟨h⟩

theorem walks_check {x : Except ε α} (hfail : G.fails q) (h : ∀ a, x = .ok a → R a q) :
    Walks G R (ofExcept x : Call S A ε α) q := by
  cases x with
  | ok a => exact ⟨h a rfl⟩
  | error e => exact walks_fail hfail

theorem walks_rejectIf {c : Prop} [Decidable c] {e : ε} {R : Unit → Q → Prop} (hfail : G.fails q)
    (h : ¬c → R () q) : Walks G R (Call.rejectIf c e : Call S A ε Unit) q := by
  apply walks_check hfail
  intro _ hx
  exact h (rejectIf_eq_ok.mp hx)

theorem walks_okOr {o : Option α} {e : ε} (hfail : o = none → G.fails q)
    (h : ∀ a, o = some a → R a q) : Walks G R (Call.okOr o e : Call S A ε α) q := by
  cases o with
  | none => exact walks_fail (hfail rfl)
  | some a => exact walks_done (h a rfl)

end Walking

section Noting

variable {S : Type} {A : S → Type} {ε α δ E κ Q : Type}
  (perform : E → (s : S) → δ → δ × Except ε (A s)) (G : Guide S A ε κ Q)

/-- The phases behind one more step of the run. -/
def noted (qs : List Q) (x : Entry (Serving S A ε α δ) (Turn κ E) Unit) : List Q :=
  match x.event with
  | .begin c => qs ++ [G.begin c]
  | .resume i e =>
    match nextStatement x.pre i, qs[i]? with
    | some s, some q => qs.set i (G.next q s (perform e s x.pre.db).2)
    | _, _ => qs

/-- The phases of the calls of the run. -/
def phases (tr : List (Entry (Serving S A ε α δ) (Turn κ E) Unit)) : List Q :=
  tr.foldl (noted perform G) []

variable (C : List Q → Serving S A ε α δ → Turn κ E → Prop)

/-- Every step meets `C`, from the phases on. -/
def MeetsFrom : List Q → List (Entry (Serving S A ε α δ) (Turn κ E) Unit) → Prop
  | _, [] => True
  | qs, x :: rest => C qs x.pre x.event ∧ MeetsFrom (noted perform G qs x) rest

/-- Every event of the list passes the test in the state that it happens in. -/
def testedFrom (c : List Q → Serving S A ε α δ → Turn κ E → Bool) (start : κ → Call S A ε α) :
    List Q → Serving S A ε α δ → List (Turn κ E) → Bool
  | _, _, [] => true
  | qs, s, e :: es =>
    c qs s e &&
      match serve perform start s e with
      | none => true
      | some (t, _) => testedFrom c start (noted perform G qs ⟨s, e, ()⟩) t es

variable {perform G C} {start : κ → Call S A ε α} {qs : List Q}

theorem meetsFrom_append {tr : List (Entry (Serving S A ε α δ) (Turn κ E) Unit)}
    {x : Entry (Serving S A ε α δ) (Turn κ E) Unit} :
    MeetsFrom perform G C qs (tr ++ [x]) ↔
      MeetsFrom perform G C qs tr ∧ C (tr.foldl (noted perform G) qs) x.pre x.event := by
  induction tr generalizing qs with
  | nil =>
    rw [List.nil_append, List.foldl_nil]
    exact ⟨fun h => ⟨trivial, h.1⟩, fun h => ⟨h.2, trivial⟩⟩
  | cons y rest ih =>
    rw [List.cons_append, List.foldl_cons]
    constructor
    · rintro ⟨hy, hrest⟩
      obtain ⟨h1, h2⟩ := ih.mp hrest
      exact ⟨⟨hy, h1⟩, h2⟩
    · rintro ⟨⟨hy, h1⟩, h2⟩
      exact ⟨hy, ih.mpr ⟨h1, h2⟩⟩

theorem meetsFrom_exec {c : List Q → Serving S A ε α δ → Turn κ E → Bool}
    {s t : Serving S A ε α δ} {es : List (Turn κ E)}
    {tr : List (Entry (Serving S A ε α δ) (Turn κ E) Unit)}
    (h : exec (serve perform start) s es = some (tr, t))
    (hc : ∀ qs s e, c qs s e = true → C qs s e)
    (htested : testedFrom perform G c start qs s es = true) : MeetsFrom perform G C qs tr := by
  induction es generalizing s tr qs with
  | nil =>
    cases h
    trivial
  | cons e es ih =>
    unfold exec at h
    unfold testedFrom at htested
    rw [Bool.and_eq_true] at htested
    split at h
    · cases h
    · rename_i u o he
      rw [he] at htested
      obtain ⟨⟨tr', t'⟩, hx, heq⟩ := Option.map_eq_some_iff.mp h
      cases heq
      exact ⟨hc qs s e htested.1, ih hx htested.2⟩

theorem phases_append (tr : List (Entry (Serving S A ε α δ) (Turn κ E) Unit))
    (x : Entry (Serving S A ε α δ) (Turn κ E) Unit) :
    phases perform G (tr ++ [x]) = noted perform G (phases perform G tr) x := by
  unfold phases
  rw [List.foldl_append]
  rfl

theorem noted_resume {s : Serving S A ε α δ} {i : Nat} {e : E} {st : S} {k : A st → Call S A ε α}
    {q : Q} (hget : s.calls[i]? = some (.ask st k)) (hq : qs[i]? = some q) :
    noted perform G qs (⟨s, .resume i e, ()⟩ : Entry (Serving S A ε α δ) (Turn κ E) Unit) =
      qs.set i (G.next q st (perform e st s.db).2) := by
  have hnext : nextStatement s i = some st := by rw [nextStatement, hget]
  unfold noted
  dsimp only
  rw [hnext, hq]

/-- The calls are in the phases, and `R` holds where they return. -/
structure InPhasesOf (G : Guide S A ε κ Q) (R : α → Q → Prop) (calls : List (Call S A ε α))
    (qs : List Q) : Prop where
  length : qs.length = calls.length
  walks : ∀ (i : Nat) p q, calls[i]? = some p → qs[i]? = some q → WalksAll G R p q

/-- The calls are in the phases. -/
abbrev InPhases (G : Guide S A ε κ Q) (calls : List (Call S A ε α)) (qs : List Q) : Prop :=
  InPhasesOf G (fun _ q => G.returns q) calls qs

variable {R : α → Q → Prop}

theorem InPhasesOf.phase {calls : List (Call S A ε α)} (h : InPhasesOf G R calls qs) {i : Nat}
    {p : Call S A ε α} (hp : calls[i]? = some p) : ∃ q, qs[i]? = some q := by
  have hlt : i < qs.length := by
    rw [h.length]
    exact (List.getElem?_eq_some_iff.mp hp).1
  exact ⟨_, List.getElem?_eq_getElem hlt⟩

/-- The phase that a call has returned in. -/
theorem InPhasesOf.returned {calls : List (Call S A ε α)} (h : InPhasesOf G R calls qs) {i : Nat}
    {a : α} (hdone : calls[i]? = some (.done a)) : ∃ q, qs[i]? = some q ∧ R a q := by
  obtain ⟨q, hq⟩ := h.phase hdone
  exact ⟨q, hq, h.walks i _ q hdone hq⟩

theorem InPhasesOf.begin {calls : List (Call S A ε α)} (h : InPhasesOf G R calls qs) {c : κ}
    {p : Call S A ε α} (hp : Walks G R p (G.begin c)) :
    InPhasesOf G R (calls ++ [p]) (qs ++ [G.begin c]) := by
  refine ⟨by simp [h.length], ?_⟩
  intro i p' q' hp' hq'
  by_cases hi : i < calls.length
  · rw [List.getElem?_append_left hi] at hp'
    rw [List.getElem?_append_left (by rw [h.length]; exact hi)] at hq'
    exact h.walks i p' q' hp' hq'
  · have hle : calls.length ≤ i := Nat.le_of_not_lt hi
    rw [List.getElem?_append_right hle] at hp'
    rw [List.getElem?_append_right (by rw [h.length]; exact hle)] at hq'
    obtain rfl := List.mem_singleton.mp (List.mem_of_getElem? hp')
    obtain rfl := List.mem_singleton.mp (List.mem_of_getElem? hq')
    exact hp.all

theorem InPhasesOf.resume {calls : List (Call S A ε α)} (h : InPhasesOf G R calls qs) {i : Nat}
    {st : S} {k : A st → Call S A ε α} {q : Q} (hget : calls[i]? = some (.ask st k))
    (hq : qs[i]? = some q) (answer : Except ε (A st)) :
    InPhasesOf G R (calls.set i (answered k answer)) (qs.set i (G.next q st answer)) := by
  have hwalk := h.walks i _ q hget hq
  refine ⟨by rw [List.length_set, List.length_set, h.length], ?_⟩
  intro j p' q' hp' hq'
  by_cases hij : i = j
  · obtain rfl := hij
    rw [List.getElem?_set_self (List.getElem?_eq_some_iff.mp hget).1] at hp'
    rw [List.getElem?_set_self (List.getElem?_eq_some_iff.mp hq).1] at hq'
    obtain rfl := Option.some.inj hp'
    obtain rfl := Option.some.inj hq'
    cases answer with
    | ok a => exact hwalk.2.2 a
    | error e => exact hwalk.2.1 e
  · rw [List.getElem?_set_ne hij] at hp' hq'
    exact h.walks j p' q' hp' hq'

/-- Induction over a run in which every step meets a condition on the phases of the calls. -/
theorem serve_observed {I : List (Entry (Serving S A ε α δ) (Turn κ E) Unit) → List Q →
      Serving S A ε α δ → Prop} {d : δ}
    {tr : List (Entry (Serving S A ε α δ) (Turn κ E) Unit)} {t : Serving S A ε α δ}
    (hstart : ∀ c, Walks G R (start c) (G.begin c))
    (h0 : I [] [] { db := d, calls := [] })
    (hbegin : ∀ tr qs s c, I tr qs s → InPhasesOf G R s.calls qs →
      I (tr ++ [⟨s, .begin c, ()⟩]) (qs ++ [G.begin c]) { s with calls := s.calls ++ [start c] })
    (hresume : ∀ tr qs s i e q st k, I tr qs s → InPhasesOf G R s.calls qs →
      s.calls[i]? = some (.ask st k) → qs[i]? = some q → G.allows q st → C qs s (.resume i e) →
      I (tr ++ [⟨s, .resume i e, ()⟩]) (qs.set i (G.next q st (perform e st s.db).2))
        { db := (perform e st s.db).1, calls := s.calls.set i (answered k (perform e st s.db).2) })
    (hrun : Run (serve perform start) { db := d, calls := [] } tr t)
    (hok : MeetsFrom perform G C [] tr) :
    I tr (phases perform G tr) t ∧ InPhasesOf G R t.calls (phases perform G tr) := by
  induction hrun with
  | start => exact ⟨h0, rfl, by simp⟩
  | @next tr s u e o hrun he ih =>
    obtain ⟨hearlier, hc⟩ := meetsFrom_append.mp hok
    obtain ⟨hi, hphases⟩ := ih hearlier
    rw [phases_append]
    cases e with
    | begin c =>
      cases he
      exact ⟨hbegin tr _ s c hi hphases, hphases.begin (hstart c)⟩
    | resume i e =>
      simp only [serve] at he
      split at he
      · rename_i st k hget
        cases he
        obtain ⟨q, hq⟩ := hphases.phase hget
        rw [noted_resume hget hq]
        have hallows := (hphases.walks i _ q hget hq).1
        exact ⟨hresume tr _ s i e q st k hi hphases hget hq hallows hc, hphases.resume hget hq _⟩
      · cases he

/-- Every call has ended. -/
theorem nextStatement_none {s : Serving S A ε α δ}
    (h : (List.range s.calls.length).all (fun i => (nextStatement s i).isNone) = true) (i : Nat) :
    nextStatement s i = none := by
  by_cases hi : i < s.calls.length
  · exact Option.isNone_iff_eq_none.mp (List.all_eq_true.mp h i (List.mem_range.mpr hi))
  · rw [nextStatement, List.getElem?_eq_none (Nat.le_of_not_lt hi)]

end Noting

end Lib
