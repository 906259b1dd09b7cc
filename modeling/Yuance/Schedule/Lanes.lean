import Yuance.Lib.Intervals
import Yuance.Schedule.Items

/-!
# Yuance.Schedule.Lanes

The lanes of `time-allocation-gantt.jsx`: the allocations of one member are sorted by their dates
and each is put into the first lane that is free. The collation behind `localeCompare` is a
parameter.

* `assignAllocationLanes`: the lanes and their ends as two arrays.
* `Board.add_ofPlan`: on both arrays the loop does what `Lib.Intervals.place` does on pairs.
* `assignAllocationLanes_optimal`: every allocation is in one lane, a lane has no day twice, and no
  fewer lanes would do.
-/

namespace Yuance
namespace Schedule

open Lib

/-! ## The function -/

/-- The order of the `sort`, from what `localeCompare` says of two strings. -/
def compareAllocations (localeCompare : String → String → Ordering) (a b : TimeAllocation) :
    Ordering :=
  (localeCompare a.startDate b.startDate).then
    ((localeCompare a.endDate b.endDate).then (localeCompare (toString a.id) (toString b.id)))

def sortAllocations (localeCompare : String → String → Ordering)
    (allocations : List TimeAllocation) : List TimeAllocation :=
  allocations.mergeSort fun a b => (compareAllocations localeCompare a b).isLE

/-- The `while` loop: how many lanes from the first on are taken on the day. -/
def laneIndex (startDate : String) : List String → Nat
  | [] => 0
  | laneEnd :: laneEnds => if laneEnd ≥ startDate then laneIndex startDate laneEnds + 1 else 0

structure Board where
  lanes : List (List TimeAllocation)
  laneEnds : List String

def Board.add (board : Board) (allocation : TimeAllocation) : Board :=
  let index := laneIndex allocation.startDate board.laneEnds
  if index = board.lanes.length then
    { lanes := board.lanes ++ [[allocation]]
      laneEnds := board.laneEnds ++ [allocation.endDate] }
  else
    { lanes := board.lanes.modify index fun lane => lane ++ [allocation]
      laneEnds := board.laneEnds.modify index fun laneEnd =>
        if allocation.endDate > laneEnd then allocation.endDate else laneEnd }

def assignAllocationLanes (localeCompare : String → String → Ordering)
    (allocations : List TimeAllocation) : List (List TimeAllocation) :=
  let board : Board := { lanes := [], laneEnds := [] }
  ((sortAllocations localeCompare allocations).foldl Board.add board).lanes

/-! ## Days -/

def isDateForm : List Char → Bool
  | [y₁, y₂, y₃, y₄, '-', m₁, m₂, '-', d₁, d₂] => [y₁, y₂, y₃, y₄, m₁, m₂, d₁, d₂].all Char.isDigit
  | _ => false

/-- A text of the form `YYYY-MM-DD`. -/
def IsDate (text : String) : Prop := isDateForm text.toList = true

instance (text : String) : Decidable (IsDate text) := inferInstanceAs (Decidable (_ = true))

def Covers (allocation : TimeAllocation) (day : String) : Prop :=
  allocation.startDate ≤ day ∧ day ≤ allocation.endDate

/-- The allocations that cover a day. -/
def busy (allocations : List TimeAllocation) (day : String) : Nat :=
  Intervals.covering TimeAllocation.startDate TimeAllocation.endDate allocations day

/-- What is promised of `localeCompare`: it orders all strings, and among dates the digits
decide. -/
structure IsCollation (localeCompare : String → String → Ordering) : Prop where
  order : Std.TransCmp localeCompare
  onDates : ∀ a b, IsDate a → IsDate b → localeCompare a b = compare a b

/-- Dates in their form, the first not after the second. -/
structure HasDates (allocation : TimeAllocation) : Prop where
  startDate : IsDate allocation.startDate
  endDate : IsDate allocation.endDate
  ordered : allocation.startDate ≤ allocation.endDate

variable {localeCompare : String → String → Ordering} {allocations : List TimeAllocation}
  {a b : TimeAllocation}

/-! ## The sort -/

theorem then_isLE_trans {α : Type} {f g : α → α → Ordering} (hf : Std.TransCmp f)
    (hg : Std.TransCmp g) : Std.TransCmp fun a b => (f a b).then (g a b) :=
  inferInstanceAs (Std.TransCmp (compareLex f g))

theorem transCmp_on {α : Type} (h : Std.TransCmp localeCompare) (f : α → String) :
    Std.TransCmp fun a b => localeCompare (f a) (f b) where
  eq_swap := h.eq_swap
  isLE_trans := h.isLE_trans

theorem compareAllocations_trans (h : Std.TransCmp localeCompare) :
    Std.TransCmp (compareAllocations localeCompare) :=
  then_isLE_trans (transCmp_on h TimeAllocation.startDate)
    (then_isLE_trans (transCmp_on h TimeAllocation.endDate)
      (transCmp_on h fun a : TimeAllocation => toString a.id))

theorem sortAllocations_perm : (sortAllocations localeCompare allocations).Perm allocations :=
  List.mergeSort_perm _ _

theorem sortAllocations_pairwise (h : Std.TransCmp localeCompare) :
    (sortAllocations localeCompare allocations).Pairwise fun a b =>
      (compareAllocations localeCompare a b).isLE = true := by
  have htrans := compareAllocations_trans h
  refine List.pairwise_mergeSort ?_ ?_ allocations
  · intro a b c hab hbc
    exact htrans.isLE_trans hab hbc
  · intro a b
    rw [Bool.or_eq_true, htrans.eq_swap (a := b), Ordering.isLE_swap]
    cases compareAllocations localeCompare a b
    · exact .inl rfl
    · exact .inl rfl
    · exact .inr rfl

/-- The allocations stand in the order of their first days. -/
theorem sortAllocations_starts (hcollation : IsCollation localeCompare)
    (hdates : ∀ a ∈ allocations, HasDates a) :
    (sortAllocations localeCompare allocations).Pairwise fun a b => a.startDate ≤ b.startDate := by
  refine (sortAllocations_pairwise hcollation.order).imp_of_mem ?_
  intro a b ha hb hle
  have ha := (hdates a (sortAllocations_perm.mem_iff.mp ha)).startDate
  have hb := (hdates b (sortAllocations_perm.mem_iff.mp hb)).startDate
  unfold compareAllocations at hle
  rw [hcollation.onDates _ _ ha hb] at hle
  rw [← compare_le_iff_le]
  intro hgt
  rw [hgt] at hle
  cases hle

/-! ## The loop -/

/-- The two arrays of a plan. -/
def Board.ofPlan (plan : List (Intervals.Lane TimeAllocation String)) : Board where
  lanes := plan.map Prod.fst
  laneEnds := plan.map Prod.snd

theorem Board.add_ofPlan (plan : List (Intervals.Lane TimeAllocation String)) (a : TimeAllocation) :
    (Board.ofPlan plan).add a
      = Board.ofPlan (Intervals.place TimeAllocation.startDate TimeAllocation.endDate a plan) := by
  induction plan with
  | nil => rfl
  | cons lane plan ih =>
    unfold Board.add Board.ofPlan at ih ⊢
    unfold Intervals.place
    simp only [List.map_cons, List.length_cons, laneIndex] at ih ⊢
    split
    · simp only [Nat.add_right_cancel_iff, List.map_cons]
      split at ih
      · rename_i hopen
        rw [if_pos hopen]
        injection ih with hlanes hends
        rw [← hlanes, ← hends]
        rfl
      · rename_i hfree
        rw [if_neg hfree]
        injection ih with hlanes hends
        rw [← hlanes, ← hends]
        rfl
    · rw [if_neg (Nat.succ_ne_zero _).symm]
      rfl

theorem assignAllocationLanes_eq : assignAllocationLanes localeCompare allocations
    = (Intervals.plan TimeAllocation.startDate TimeAllocation.endDate
        (sortAllocations localeCompare allocations)).map Prod.fst := by
  have hfold : ∀ l : List TimeAllocation, ∀ plan,
      l.foldl Board.add (Board.ofPlan plan) = Board.ofPlan (l.foldl (fun lanes x =>
        Intervals.place TimeAllocation.startDate TimeAllocation.endDate x lanes) plan) := by
    intro l
    induction l with
    | nil =>
      intro plan
      rfl
    | cons a l ih =>
      intro plan
      rw [List.foldl_cons, List.foldl_cons, Board.add_ofPlan, ih]
  exact congrArg Board.lanes (hfold (sortAllocations localeCompare allocations) [])

/-! ## The lanes -/

theorem assignAllocationLanes_perm :
    (assignAllocationLanes localeCompare allocations).flatten.Perm allocations := by
  rw [assignAllocationLanes_eq, ← List.flatMap_def]
  exact (Intervals.plan_perm _ _ _).trans sortAllocations_perm

theorem assignAllocationLanes_apart {lane : List TimeAllocation}
    (hlane : lane ∈ assignAllocationLanes localeCompare allocations) :
    lane.Pairwise fun a b => a.endDate < b.startDate := by
  rw [assignAllocationLanes_eq] at hlane
  obtain ⟨packed, hpacked, rfl⟩ := List.mem_map.mp hlane
  exact Intervals.plan_apart hpacked

theorem busy_le (day : String) :
    busy allocations day ≤ (assignAllocationLanes localeCompare allocations).length := by
  rw [assignAllocationLanes_eq, List.length_map]
  exact le_trans (le_of_eq (Intervals.covering_perm sortAllocations_perm day).symm)
    (Intervals.covering_le_length _ day)

theorem exists_busy (hcollation : IsCollation localeCompare)
    (hdates : ∀ a ∈ allocations, HasDates a) (hne : allocations ≠ []) : ∃ a ∈ allocations,
      busy allocations a.startDate = (assignAllocationLanes localeCompare allocations).length := by
  have hperm : (sortAllocations localeCompare allocations).Perm allocations := sortAllocations_perm
  obtain ⟨a, ha, hle⟩ := Intervals.exists_length_le_covering (l := sortAllocations localeCompare
    allocations) (sortAllocations_starts hcollation hdates)
    (fun a ha => (hdates a (hperm.mem_iff.mp ha)).ordered)
    (fun hnil => hne (List.perm_nil.mp (by rw [hnil] at hperm; exact hperm.symm)))
  refine ⟨a, hperm.mem_iff.mp ha, Nat.le_antisymm (busy_le a.startDate) ?_⟩
  rw [assignAllocationLanes_eq, List.length_map]
  exact le_trans hle (le_of_eq (Intervals.covering_perm hperm a.startDate))

/-- The lanes hold every allocation once, no two of a lane have a day in common, and there are as
many as the busiest day has allocations. -/
theorem assignAllocationLanes_optimal (hcollation : IsCollation localeCompare)
    (hdates : ∀ a ∈ allocations, HasDates a) :
    (assignAllocationLanes localeCompare allocations).flatten.Perm allocations
      ∧ (∀ lane ∈ assignAllocationLanes localeCompare allocations,
          lane.Pairwise fun a b => ¬ ∃ day, Covers a day ∧ Covers b day)
      ∧ IsGreatest {n | ∃ day, IsDate day ∧ busy allocations day = n}
          (assignAllocationLanes localeCompare allocations).length
      ∧ (allocations ≠ [] → ∃ a ∈ allocations, busy allocations a.startDate
          = (assignAllocationLanes localeCompare allocations).length) := by
  refine ⟨assignAllocationLanes_perm, ?_, ⟨?_, ?_⟩, exists_busy hcollation hdates⟩
  · intro lane hlane
    refine (assignAllocationLanes_apart hlane).imp ?_
    intro a b hlt ⟨day, ha, hb⟩
    exact absurd (lt_of_le_of_lt ha.2 hlt) (not_lt_of_ge hb.1)
  · by_cases hne : allocations = []
    · subst hne
      refine ⟨"2026-01-01", by decide, ?_⟩
      rw [assignAllocationLanes, sortAllocations, List.mergeSort_nil]
      rfl
    · obtain ⟨a, ha, heq⟩ := exists_busy hcollation hdates hne
      exact ⟨a.startDate, (hdates a ha).startDate, heq⟩
  · rintro n ⟨day, _, rfl⟩
    exact busy_le day

/-! ## Two allocations that cross -/

theorem isCollation_compare : IsCollation compare where
  order := inferInstance
  onDates := fun _ _ _ _ => rfl

def crossing (id : Int) (startDate endDate : String) : TimeAllocation where
  id := id
  projectKey := "YC"
  projectName := "Yuance"
  username := "lin"
  displayName := "Lin"
  startDate := startDate
  endDate := endDate
  dailyHours := 8
  phaseTaskName := ""
  note := ""

def crossings : List TimeAllocation :=
  [crossing 1 "2026-01-03" "2026-01-09", crossing 2 "2026-01-01" "2026-01-03"]

theorem crossings_optimal : (assignAllocationLanes compare crossings).flatten.Perm crossings
    ∧ IsGreatest {n | ∃ day, IsDate day ∧ busy crossings day = n}
        (assignAllocationLanes compare crossings).length
    ∧ busy crossings "2026-01-03" = 2 := by
  have hdates : ∀ a ∈ crossings, HasDates a := by
    intro a ha
    rcases List.mem_cons.mp ha with rfl | ha
    · exact ⟨by decide, by decide, by decide⟩
    · obtain rfl := List.mem_singleton.mp ha
      exact ⟨by decide, by decide, by decide⟩
  obtain ⟨hperm, _, hgreatest, _⟩ := assignAllocationLanes_optimal isCollation_compare hdates
  exact ⟨hperm, hgreatest, by decide⟩

end Schedule
end Yuance
