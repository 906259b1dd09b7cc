import Yuance.Lib.Calls

/-!
# Yuance.Lib.Seen

What a call has seen before it returned: a statement with its answer.

* `Sees`: the call returns only behind a statement whose answer meets `M`.
* `serve_sees`: in every run, a call that returned has made such a statement.
* `serve_returns`: in every run, what a call returned is as its discipline says.
-/

namespace Lib

open Call

variable {S : Type} {A : S → Type} {ε α β δ E κ : Type}

/-- Every return of the call comes behind a statement with an answer that meets `M`. -/
def SeesAll (M : (s : S) → A s → Prop) : Call S A ε α → Prop
  | done _ => False
  | fail _ => True
  | ask s k => ∀ a, M s a ∨ SeesAll M (k a)

/-- The same, folded up. -/
structure Sees (M : (s : S) → A s → Prop) (p : Call S A ε α) : Prop where
  all : SeesAll M p

section Rules

variable {M : (s : S) → A s → Prop} {p : Call S A ε α} {f : α → Call S A ε β}

theorem sees_fail {e : ε} : Sees M (fail e : Call S A ε α) := ⟨trivial⟩

/-- A statement whose answer meets `M`, or tells that the rest sees one that does. -/
theorem sees_ask {s : S} {f : A s → Call S A ε β} (h : ∀ a, M s a ∨ Sees M (f a)) :
    Sees M (make s >>= f) := by
  constructor
  intro a
  rcases h a with hm | hf
  · exact .inl hm
  · exact .inr hf.all

theorem sees_check {x : Except ε α} (h : ∀ a, x = .ok a → Sees M (f a)) :
    Sees M (ofExcept x >>= f) := by
  cases x with
  | ok a => exact h a rfl
  | error e => exact sees_fail

theorem sees_rejectIf {c : Prop} [Decidable c] {e : ε} {f : Unit → Call S A ε β}
    (h : ¬c → Sees M (f ())) : Sees M (Call.rejectIf c e >>= f) := by
  apply sees_check
  intro _ hx
  exact h (rejectIf_eq_ok.mp hx)

theorem sees_okOr {o : Option α} {e : ε} (h : ∀ a, o = some a → Sees M (f a)) :
    Sees M (Call.okOr o e >>= f) := by
  apply sees_check
  intro a hx
  exact h a (okOr_eq_ok.mp hx)

end Rules

/-- The step in which the `i`-th call makes the statement and gets the answer. -/
def Answers (perform : E → (s : S) → δ → δ × Except ε (A s)) (i : Nat) (st : S) (a : A st)
    (x : Entry (Serving S A ε α δ) (Turn κ E) Unit) : Prop :=
  ∃ e, x.event = .resume i e ∧ nextStatement x.pre i = some st ∧
    (perform e st x.pre.db).2 = .ok a

variable {perform : E → (s : S) → δ → δ × Except ε (A s)} {start : κ → Call S A ε α}

/-- A call that returned has seen what it cannot return without. -/
theorem serve_sees {M : κ → (s : S) → A s → Prop} {d : δ}
    {tr : List (Entry (Serving S A ε α δ) (Turn κ E) Unit)} {t : Serving S A ε α δ} {i : Nat} {c : κ}
    {a : α} (hstart : Sees (M c) (start c))
    (hrun : Run (serve perform start) { db := d, calls := [] } tr t)
    (hbegun : (begun tr)[i]? = some c) (hdone : t.calls[i]? = some (.done a)) :
    ∃ x ∈ tr, ∃ st b, M c st b ∧ Answers perform i st b x := by
  have hinv := hrun.history (C := fun _ _ => True)
    (I := fun tr s => (begun tr).length = s.calls.length ∧ ∀ p, (begun tr)[i]? = some c →
      s.calls[i]? = some p → SeesAll (M c) p ∨ ∃ x ∈ tr, ∃ st b, M c st b ∧ Answers perform i st b x)
    ⟨rfl, by simp [begun]⟩ ?_ (fun _ _ => trivial)
  · rcases hinv.2 _ hbegun hdone with hsee | hseen
    · exact absurd hsee id
    · exact hseen
  intro tr s e u o _ hpast _ hstep
  obtain ⟨hlength, hcalls⟩ := hpast
  -- what was seen stays seen
  have kept : (∃ x ∈ tr, ∃ st b, M c st b ∧ Answers perform i st b x) →
      ∃ x ∈ tr ++ [⟨s, e, o⟩], ∃ st b, M c st b ∧ Answers perform i st b x := by
    rintro ⟨x, hx, hseen⟩
    exact ⟨x, List.mem_append_left _ hx, hseen⟩
  cases e with
  | begin c' =>
    cases hstep
    have hlast : begun (tr ++ [⟨s, .begin c', ()⟩]) = begun tr ++ [c'] := by
      simp [begun]
    rw [hlast]
    refine ⟨by simp [hlength], ?_⟩
    intro p hc hp
    by_cases hi : i < s.calls.length
    · rw [List.getElem?_append_left (by omega)] at hc
      rw [List.getElem?_append_left hi] at hp
      rcases hcalls p hc hp with hsee | hseen
      · exact .inl hsee
      · exact .inr (kept hseen)
    · rw [List.getElem?_append_right (by omega)] at hc hp
      obtain rfl := List.mem_singleton.mp (List.mem_of_getElem? hc)
      obtain rfl := List.mem_singleton.mp (List.mem_of_getElem? hp)
      exact .inl hstart.all
  | resume j e =>
    simp only [serve] at hstep
    split at hstep
    · rename_i st k hget
      cases hstep
      have hsame : begun (tr ++ [⟨s, .resume j e, ()⟩]) = begun tr := by
        simp [begun]
      rw [hsame]
      refine ⟨by rw [List.length_set, hlength], ?_⟩
      intro p hc hp
      by_cases hij : j = i
      · obtain rfl := hij
        have hlt : j < s.calls.length := (List.getElem?_eq_some_iff.mp hget).1
        rw [List.getElem?_set_self hlt] at hp
        obtain rfl := Option.some.inj hp
        rcases hcalls _ hc hget with hsee | hseen
        · cases hr : (perform e st s.db).2 with
          | error err => exact .inl trivial
          | ok b =>
            rcases hsee b with hm | hk
            · refine .inr ⟨⟨s, .resume j e, ()⟩, List.mem_append_right _ List.mem_cons_self, st, b, hm,
                e, rfl, ?_, hr⟩
              rw [nextStatement, hget]
            · exact .inl hk
        · exact .inr (kept hseen)
      · rw [List.getElem?_set_ne hij] at hp
        rcases hcalls p hc hp with hsee | hseen
        · exact .inl hsee
        · exact .inr (kept hseen)
    · cases hstep

/-- A call that returned, in a run of calls that keep the discipline: what holds from its return on
holds at the end. -/
theorem serve_returns {D : Discipline S A ε δ E} {Q : α → δ → Prop} {d : δ}
    {tr : List (Entry (Serving S A ε α δ) (Turn κ E) Unit)} {t : Serving S A ε α δ} {i : Nat} {c : κ}
    {a : α} (h0 : D.I d) (hkeeps : ∀ c d, Quiet D (start c) d) (hthis : ∀ d, Keeps D Q (start c) d)
    (hrun : Run (serve D.perform start) { db := d, calls := [] } tr t)
    (hok : ∀ x ∈ tr, Meets D.C x.pre x.event)
    (hbegun : (begun tr)[i]? = some c) (hdone : t.calls[i]? = some (.done a)) : Q a t.db := by
  have hinv := hrun.history (C := Meets D.C)
    (I := fun tr s => (D.I s.db ∧ (begun tr).length = s.calls.length) ∧
      (∀ p ∈ s.calls, Safe D.perform D.R D.I D.C (fun _ _ => True) p s.db) ∧
      ∀ p, (begun tr)[i]? = some c → s.calls[i]? = some p →
        Safe D.perform D.R D.I D.C Q p s.db)
    ⟨⟨h0, rfl⟩, by simp, by simp [begun]⟩ ?_ hok
  · exact hinv.2.2 _ hbegun hdone t.db (D.refl t.db)
  intro tr s e u o _ hpast hc hstep
  obtain ⟨⟨hi, hlength⟩, hcalls, hone⟩ := hpast
  cases e with
  | begin c' =>
    cases hstep
    have hlast : begun (tr ++ [⟨s, .begin c', ()⟩]) = begun tr ++ [c'] := by
      simp [begun]
    rw [hlast]
    refine ⟨⟨hi, by simp [hlength]⟩, ?_, ?_⟩
    · intro p hp
      rcases List.mem_append.mp hp with hmem | hmem
      · exact hcalls p hmem
      · rw [List.mem_singleton.mp hmem]
        exact (hkeeps c' s.db).safe
    · intro p hc hp
      by_cases hi : i < s.calls.length
      · rw [List.getElem?_append_left (by omega)] at hc
        rw [List.getElem?_append_left hi] at hp
        exact hone p hc hp
      · rw [List.getElem?_append_right (by omega)] at hc hp
        obtain rfl := List.mem_singleton.mp (List.mem_of_getElem? hc)
        obtain rfl := List.mem_singleton.mp (List.mem_of_getElem? hp)
        exact (hthis s.db).safe
  | resume j e =>
    simp only [serve] at hstep
    split at hstep
    · rename_i st k hget
      cases hstep
      have hsame : begun (tr ++ [⟨s, .resume j e, ()⟩]) = begun tr := by
        simp [begun]
      have hmeets := hc st (by rw [nextStatement, hget])
      rw [hsame]
      obtain ⟨h1, h2, h3⟩ := hcalls _ (List.mem_of_getElem? hget) s.db e (D.refl s.db) hi hmeets
      refine ⟨⟨h1, by rw [List.length_set, hlength]⟩, ?_, ?_⟩
      · intro p hp
        rcases List.mem_or_eq_of_mem_set hp with hmem | rfl
        · exact safe_later D.trans (hcalls p hmem) h2
        · cases hr : (D.perform e st s.db).2 with
          | ok b => exact h3 b hr
          | error err => trivial
      · intro p hbegun' hp
        by_cases hij : j = i
        · obtain rfl := hij
          have hlt : j < s.calls.length := (List.getElem?_eq_some_iff.mp hget).1
          rw [List.getElem?_set_self hlt] at hp
          obtain rfl := Option.some.inj hp
          obtain ⟨_, _, hnext⟩ := hone _ hbegun' hget s.db e (D.refl s.db) hi hmeets
          cases hr : (D.perform e st s.db).2 with
          | ok b => exact hnext b hr
          | error err => trivial
        · rw [List.getElem?_set_ne hij] at hp
          exact safe_later D.trans (hone p hbegun' hp) h2
    · cases hstep

end Lib
