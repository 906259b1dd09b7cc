import Mathlib

/-!
# Yuance.Lib.Intervals

Closed intervals of a linear order, taken one after the other and put into the first lane whose last
end lies before them.

* `place`: one interval into the lanes so far; `plan`: all of them.
* `plan_perm`, `plan_apart`: the lanes hold the intervals, and those of one lane are disjoint.
* `covering_le_length`: no point lies in more intervals than there are lanes.
* `exists_length_le_covering`: taken in the order of their starts, they need that many lanes at the
  start of one of them.
-/

namespace Lib
namespace Intervals

variable {α β δ : Type} [LinearOrder δ]

/-- A lane: what it holds, and the greatest end in it. -/
abbrev Lane (α δ : Type) := List α × δ

section Place

variable (start finish : α → δ)

def place (x : α) : List (Lane α δ) → List (Lane α δ)
  | [] => [([x], finish x)]
  | lane :: rest =>
    if lane.2 ≥ start x then lane :: place x rest
    else (lane.1 ++ [x], if finish x > lane.2 then finish x else lane.2) :: rest

def plan (l : List α) : List (Lane α δ) := l.foldl (fun lanes x => place start finish x lanes) []

/-- The intervals of `l` in which `d` lies. -/
def covering (l : List α) (d : δ) : Nat := l.countP fun x => start x ≤ d ∧ d ≤ finish x

/-- The intervals of a lane lie one behind the other, the last before its end. -/
structure Packed (lane : Lane α δ) : Prop where
  bounded : ∀ x ∈ lane.1, finish x ≤ lane.2
  reached : ∃ x ∈ lane.1, finish x = lane.2
  apart : lane.1.Pairwise fun x y => finish x < start y

end Place

variable {start finish : α → δ} {x : α} {l : List α} {lane : Lane α δ} {lanes : List (Lane α δ)}
  {d : δ}

/-! ## One interval -/

theorem place_perm : ((place start finish x lanes).flatMap Prod.fst).Perm
    (lanes.flatMap Prod.fst ++ [x]) := by
  induction lanes with
  | nil => exact List.Perm.refl [x]
  | cons lane rest ih =>
    unfold place
    split
    · rw [List.flatMap_cons, List.flatMap_cons, List.append_assoc]
      exact List.Perm.append_left lane.1 ih
    · rw [List.flatMap_cons, List.flatMap_cons, List.append_assoc, List.append_assoc]
      exact List.Perm.append_left lane.1 List.perm_append_comm

theorem Packed.single : Packed start finish ([x], finish x) where
  bounded := by
    intro y hy
    obtain rfl := List.mem_singleton.mp hy
    exact le_refl (finish y)
  reached := ⟨x, List.mem_singleton_self x, rfl⟩
  apart := List.pairwise_singleton _ x

theorem Packed.push (h : Packed start finish lane) (hfree : lane.2 < start x) :
    Packed start finish (lane.1 ++ [x], if finish x > lane.2 then finish x else lane.2) where
  bounded := by
    intro y hy
    rcases List.mem_append.mp hy with hy | hy
    · have hle := h.bounded y hy
      split
      · rename_i hgt
        exact le_trans hle (le_of_lt hgt)
      · exact hle
    · obtain rfl := List.mem_singleton.mp hy
      split
      · exact le_refl (finish y)
      · rename_i hle
        exact le_of_not_gt hle
  reached := by
    split
    · exact ⟨x, List.mem_append_right _ (List.mem_singleton_self x), rfl⟩
    · obtain ⟨y, hy, heq⟩ := h.reached
      exact ⟨y, List.mem_append_left _ hy, heq⟩
  apart := by
    refine List.pairwise_append.mpr ⟨h.apart, List.pairwise_singleton _ x, ?_⟩
    intro y hy z hz
    obtain rfl := List.mem_singleton.mp hz
    exact lt_of_le_of_lt (h.bounded y hy) hfree

theorem place_packed (h : ∀ lane ∈ lanes, Packed start finish lane) :
    ∀ lane ∈ place start finish x lanes, Packed start finish lane := by
  induction lanes with
  | nil =>
    intro lane hlane
    obtain rfl := List.mem_singleton.mp hlane
    exact Packed.single
  | cons head rest ih =>
    have hhead := h head List.mem_cons_self
    have hrest := fun lane hlane => h lane (List.mem_cons_of_mem head hlane)
    unfold place
    split
    · intro lane hlane
      rcases List.mem_cons.mp hlane with rfl | hlane
      · exact hhead
      · exact ih hrest lane hlane
    · rename_i hfree
      intro lane hlane
      rcases List.mem_cons.mp hlane with rfl | hlane
      · exact hhead.push (lt_of_not_ge hfree)
      · exact hrest lane hlane

/-- A lane is opened only where none is free. -/
theorem place_length : (place start finish x lanes).length = lanes.length
    ∨ ((place start finish x lanes).length = lanes.length + 1
      ∧ ∀ lane ∈ lanes, start x ≤ lane.2) := by
  induction lanes with
  | nil =>
    refine .inr ⟨rfl, ?_⟩
    intro lane hlane
    cases hlane
  | cons head rest ih =>
    unfold place
    split
    · rename_i hbusy
      rw [List.length_cons, List.length_cons]
      rcases ih with hsame | ⟨hmore, hall⟩
      · exact .inl (by rw [hsame])
      · refine .inr ⟨by rw [hmore], ?_⟩
        intro lane hlane
        rcases List.mem_cons.mp hlane with rfl | hlane
        · exact hbusy
        · exact hall lane hlane
    · exact .inl rfl

/-! ## Counting -/

theorem covering_perm {l' : List α} (h : l.Perm l') (d : δ) :
    covering start finish l d = covering start finish l' d := h.countP_eq _

theorem covering_flatMap (lanes : List (Lane α δ)) (d : δ) :
    covering start finish (lanes.flatMap Prod.fst) d
      = (lanes.map fun lane => covering start finish lane.1 d).sum := by
  unfold covering
  rw [List.countP_flatMap]
  rfl

/-- Of disjoint intervals at most one has the point. -/
theorem covering_le_one (h : l.Pairwise fun x y => finish x < start y) (d : δ) :
    covering start finish l d ≤ 1 := by
  induction l with
  | nil => exact Nat.zero_le 1
  | cons x l ih =>
    obtain ⟨hx, hl⟩ := List.pairwise_cons.mp h
    unfold covering at ih ⊢
    rw [List.countP_cons]
    split
    · rename_i hcovers
      have hcovers := of_decide_eq_true hcovers
      have hnone : l.countP (fun x => start x ≤ d ∧ d ≤ finish x) = 0 := by
        rw [List.countP_eq_zero]
        intro y hy hcovers'
        have hcovers' := of_decide_eq_true hcovers'
        exact absurd (lt_of_le_of_lt hcovers.2 (hx y hy)) (not_lt_of_ge hcovers'.1)
      rw [hnone]
    · rw [Nat.add_zero]
      exact ih hl

theorem one_le_covering (hx : x ∈ l) (hstart : start x ≤ d) (hfinish : d ≤ finish x) :
    1 ≤ covering start finish l d :=
  List.countP_pos_iff.mpr ⟨x, hx, decide_eq_true ⟨hstart, hfinish⟩⟩

theorem sum_le_length {f : β → Nat} {l : List β} (h : ∀ b ∈ l, f b ≤ 1) :
    (l.map f).sum ≤ l.length := by
  have hle := List.sum_le_card_nsmul (l.map f) 1 (by
    intro n hn
    obtain ⟨b, hb, rfl⟩ := List.mem_map.mp hn
    exact h b hb)
  rwa [List.length_map, smul_eq_mul, Nat.mul_one] at hle

theorem length_le_sum {f : β → Nat} {l : List β} (h : ∀ b ∈ l, 1 ≤ f b) :
    l.length ≤ (l.map f).sum := by
  have hle := List.card_nsmul_le_sum (l.map f) 1 (by
    intro n hn
    obtain ⟨b, hb, rfl⟩ := List.mem_map.mp hn
    exact h b hb)
  rwa [List.length_map, smul_eq_mul, Nat.mul_one] at hle

/-! ## All of them -/

theorem plan_concat (l : List α) (x : α) :
    plan start finish (l ++ [x]) = place start finish x (plan start finish l) := by
  unfold plan
  rw [List.foldl_append]
  rfl

theorem plan_perm (start finish : α → δ) (l : List α) :
    ((plan start finish l).flatMap Prod.fst).Perm l := by
  induction l using List.reverseRecOn with
  | nil => exact List.Perm.refl []
  | append_singleton l x ih =>
    rw [plan_concat]
    exact place_perm.trans (List.Perm.append_right [x] ih)

theorem plan_packed (l : List α) : ∀ lane ∈ plan start finish l, Packed start finish lane := by
  induction l using List.reverseRecOn with
  | nil =>
    intro lane hlane
    cases hlane
  | append_singleton l x ih =>
    rw [plan_concat]
    exact place_packed ih

theorem plan_apart (hlane : lane ∈ plan start finish l) :
    lane.1.Pairwise fun x y => finish x < start y := (plan_packed l lane hlane).apart

theorem covering_le_length (l : List α) (d : δ) :
    covering start finish l d ≤ (plan start finish l).length := by
  rw [← covering_perm (plan_perm start finish l) d, covering_flatMap]
  exact sum_le_length fun lane hlane => covering_le_one (plan_apart hlane) d

/-- Where every lane is taken at the start of `x`, so many intervals have that point. -/
theorem length_lt_covering (hall : ∀ lane ∈ plan start finish l, start x ≤ lane.2)
    (hlast : ∀ y ∈ l, start y ≤ start x) (hx : start x ≤ finish x) :
    (plan start finish l).length + 1 ≤ covering start finish (l ++ [x]) (start x) := by
  have hlanes : (plan start finish l).length ≤ covering start finish l (start x) := by
    rw [← covering_perm (plan_perm start finish l) (start x), covering_flatMap]
    refine length_le_sum ?_
    intro lane hlane
    obtain ⟨y, hy, heq⟩ := (plan_packed l lane hlane).reached
    have hmem : y ∈ l :=
      (plan_perm start finish l).mem_iff.mp (List.mem_flatMap.mpr ⟨lane, hlane, hy⟩)
    exact one_le_covering hy (hlast y hmem) (by rw [heq]; exact hall lane hlane)
  have hself := @one_le_covering _ _ _ start finish x [x] (start x) (List.mem_singleton_self x)
    (le_refl (start x)) hx
  have hsplit : covering start finish (l ++ [x]) (start x)
      = covering start finish l (start x) + covering start finish [x] (start x) :=
    List.countP_append
  omega

theorem covering_mono (l : List α) (x : α) (d : δ) :
    covering start finish l d ≤ covering start finish (l ++ [x]) d := by
  unfold covering
  rw [List.countP_append]
  exact Nat.le_add_right _ _

/-- The lane opened last was needed at the start of the interval that opened it. -/
theorem exists_length_le_covering (hsorted : l.Pairwise fun x y => start x ≤ start y)
    (hvalid : ∀ x ∈ l, start x ≤ finish x) (hne : l ≠ []) :
    ∃ x ∈ l, (plan start finish l).length ≤ covering start finish l (start x) := by
  induction l using List.reverseRecOn with
  | nil => exact absurd rfl hne
  | append_singleton l x ih =>
    obtain ⟨hl, _, hlast⟩ := List.pairwise_append.mp hsorted
    have hlast : ∀ y ∈ l, start y ≤ start x := fun y hy => hlast y hy x (List.mem_singleton_self x)
    have hx : x ∈ l ++ [x] := List.mem_append_right l (List.mem_singleton_self x)
    rw [plan_concat]
    rcases @place_length α δ _ start finish x (plan start finish l) with hsame | ⟨hmore, hall⟩
    · by_cases hempty : l = []
      · subst hempty
        cases hsame
      · obtain ⟨y, hy, hle⟩ := ih hl (fun y hy => hvalid y (List.mem_append_left _ hy)) hempty
        refine ⟨y, List.mem_append_left _ hy, ?_⟩
        rw [hsame]
        exact le_trans hle (covering_mono l x (start y))
    · refine ⟨x, hx, ?_⟩
      rw [hmore]
      exact length_lt_covering hall hlast (hvalid x hx)

end Intervals
end Lib
