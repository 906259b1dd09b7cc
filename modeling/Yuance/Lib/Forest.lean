import Mathlib

/-!
# Yuance.Lib.Forest

Items that name their parent by its id. Where a parent has a smaller id than its children, the items
are a forest: going down from the items without a parent reaches each of them exactly once.

* `rank_lt`, `above_lt`: what gets smaller on the way up and on the way down.
* `count_descend`: how often an item is reached, from how often its parent is.
* `count_descend_roots`: every item is reached once.
-/

namespace Lib

/-- How many of the ids are at most `x`. -/
def rank (ids : List Int) (x : Int) : Nat := (ids.toFinset.filter (· ≤ x)).card

theorem rank_le_length (ids : List Int) (x : Int) : rank ids x ≤ ids.length :=
  (Finset.card_filter_le _ _).trans (List.toFinset_card_le ids)

theorem rank_pos {ids : List Int} {x : Int} (h : x ∈ ids) : 0 < rank ids x :=
  Finset.card_pos.mpr ⟨x, by simp [h]⟩

theorem rank_lt {ids : List Int} {x y : Int} (hy : y ∈ ids) (hxy : x < y) :
    rank ids x < rank ids y := by
  apply Finset.card_lt_card
  rw [Finset.ssubset_iff_of_subset]
  · exact ⟨y, by simp [hy], by simp [hxy]⟩
  · intro z hz
    rw [Finset.mem_filter] at hz ⊢
    exact ⟨hz.1, by omega⟩

/-- How many of the ids are behind `p`, or all of them. -/
def above (ids : List Int) : Option Int → Nat
  | none => ids.toFinset.card
  | some p => (ids.toFinset.filter (p < ·)).card

theorem above_le_length (ids : List Int) (p : Option Int) : above ids p ≤ ids.length := by
  cases p with
  | none => exact List.toFinset_card_le ids
  | some p => exact (Finset.card_filter_le _ _).trans (List.toFinset_card_le ids)

theorem above_lt {ids : List Int} {p : Option Int} {x : Int} (hx : x ∈ ids)
    (h : ∀ q, p = some q → q < x) : above ids (some x) < above ids p := by
  cases p with
  | none =>
    apply Finset.card_lt_card
    rw [Finset.ssubset_iff_of_subset (Finset.filter_subset _ _)]
    exact ⟨x, by simp [hx], by simp⟩
  | some q =>
    have hq := h q rfl
    apply Finset.card_lt_card
    rw [Finset.ssubset_iff_of_subset]
    · exact ⟨x, by simp [hx, hq], by simp⟩
    · intro z hz
      rw [Finset.mem_filter] at hz ⊢
      exact ⟨hz.1, by omega⟩

section Descend

variable {α : Type} (id : α → Int) (parent : α → Option Int) (items : List α)

/-- The ids of the items below `p`, down to a depth. -/
def descend : Nat → Option Int → List Int
  | 0, _ => []
  | n + 1, p =>
    (items.filter fun i => parent i == p).flatMap fun i => id i :: descend n (some (id i))

variable {id parent items}

theorem mem_descend {n : Nat} {p : Option Int} {x : Int} (h : x ∈ descend id parent items n p) :
    ∃ i ∈ items, id i = x := by
  induction n generalizing p with
  | zero => cases h
  | succ n ih =>
    rw [descend, List.mem_flatMap] at h
    obtain ⟨i, hi, hx⟩ := h
    rcases List.mem_cons.mp hx with rfl | hx
    · exact ⟨i, (List.mem_filter.mp hi).1, rfl⟩
    · exact ih hx

theorem count_descend_succ (n : Nat) (p : Option Int) (x : Int) :
    (descend id parent items (n + 1) p).count x =
      (((items.filter fun i => parent i == p).map id).count x) +
        ((items.filter fun i => parent i == p).map
          fun i => (descend id parent items n (some (id i))).count x).sum := by
  rw [descend, List.count_flatMap]
  induction items.filter (fun i => parent i == p) with
  | nil => rfl
  | cons i l ih =>
    simp only [List.map_cons, List.sum_cons, Function.comp_apply, List.count_cons] at ih ⊢
    rw [ih]
    omega

/-- The children of `p` that are `x`. -/
theorem count_children (hnodup : (items.map id).Nodup) {x : α} (hx : x ∈ items) (p : Option Int) :
    ((items.filter fun i => parent i == p).map id).count (id x) = if parent x = p then 1 else 0 := by
  have hsub : ((items.filter fun i => parent i == p).map id).Sublist (items.map id) :=
    (List.filter_sublist).map id
  split
  · rename_i hp
    apply List.count_eq_one_of_mem (hnodup.sublist hsub)
    exact List.mem_map_of_mem (List.mem_filter.mpr ⟨hx, by simp [hp]⟩)
  · rename_i hp
    apply List.count_eq_zero_of_not_mem
    intro hmem
    obtain ⟨y, hy, heq⟩ := List.mem_map.mp hmem
    obtain ⟨hyi, hyp⟩ := List.mem_filter.mp hy
    obtain rfl : y = x := List.inj_on_of_nodup_map hnodup hyi hx heq
    exact hp (by simpa using hyp)

/-- An item is reached as a child of `p`, or below its parent. -/
theorem count_descend (hnodup : (items.map id).Nodup) {x : α} (hx : x ∈ items) (n : Nat)
    (p : Option Int) :
    (descend id parent items (n + 1) p).count (id x) =
      (if parent x = p then 1 else 0) +
        ((parent x).elim 0 fun q => (descend id parent items n p).count q) := by
  induction n generalizing p with
  | zero =>
    rw [count_descend_succ, count_children hnodup hx]
    simp only [descend, List.count_nil, List.map_const', List.sum_replicate, smul_zero]
    cases parent x with
    | none => rfl
    | some q => rfl
  | succ n ih =>
    rw [count_descend_succ, count_children hnodup hx]
    congr 1
    simp only [ih]
    cases hq : parent x with
    | none => simp
    | some q =>
      simp only [Option.elim_some, count_descend_succ n p q]
      induction items.filter (fun i => parent i == p) with
      | nil => rfl
      | cons i l ihl =>
        simp only [List.map_cons, List.sum_cons, List.count_cons, Option.some.injEq] at ihl ⊢
        rw [ihl]
        by_cases hiq : id i = q
        · simp [hiq]
          omega
        · rw [if_neg (fun h => hiq h.symm), if_neg (by simpa using hiq)]
          omega

/-- From the items without a parent, every item is reached once. -/
theorem count_descend_roots (hnodup : (items.map id).Nodup)
    (hparent : ∀ x ∈ items, ∀ q, parent x = some q → q < id x ∧ ∃ y ∈ items, id y = q) {n : Nat}
    {x : α} (hx : x ∈ items) (hn : rank (items.map id) (id x) ≤ n) :
    (descend id parent items n none).count (id x) = 1 := by
  induction n generalizing x with
  | zero =>
    have := rank_pos (List.mem_map_of_mem (f := id) hx)
    omega
  | succ n ih =>
    rw [count_descend hnodup hx]
    cases hq : parent x with
    | none => rfl
    | some q =>
      obtain ⟨hlt, y, hy, rfl⟩ := hparent x hx q hq
      have hrank := rank_lt (List.mem_map_of_mem (f := id) hx) hlt
      rw [if_neg (by simp), Nat.zero_add, Option.elim_some]
      exact ih hy (by omega)

end Descend

end Lib
