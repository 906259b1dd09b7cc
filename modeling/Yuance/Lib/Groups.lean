import Mathlib

/-!
# Yuance.Lib.Groups

Rows grouped by a key, as a query with `GROUP BY` groups them, and the sums of what is counted group
by group.

* `find?_grouped`: the group of a key holds the rows with that key.
* `sum_counts`: counts taken key by key add up to the count of the rows whose key is among them.
-/

namespace Lib

variable {α κ : Type} [DecidableEq κ]

/-- `GROUP BY key`: the keys that occur, each with its rows. -/
def grouped (key : α → κ) (t : List α) : List (κ × List α) :=
  (t.map key).dedup.map fun k => (k, t.filter fun x => key x = k)

section Grouped

variable {key : α → κ} {t : List α}

theorem mem_grouped {k : κ} {rows : List α} :
    (k, rows) ∈ grouped key t ↔ k ∈ t.map key ∧ rows = t.filter fun x => key x = k := by
  unfold grouped
  rw [List.mem_map]
  constructor
  · rintro ⟨k', hk', heq⟩
    cases heq
    exact ⟨List.mem_dedup.mp hk', rfl⟩
  · rintro ⟨hk, rfl⟩
    exact ⟨k, List.mem_dedup.mpr hk, rfl⟩

theorem nodup_grouped (key : α → κ) (t : List α) : ((grouped key t).map Prod.fst).Nodup := by
  unfold grouped
  rw [List.map_map]
  exact (List.map_id _).symm ▸ List.nodup_dedup (t.map key)

/-- A key that does not occur has no group. -/
theorem find?_grouped (key : α → κ) (t : List α) (k : κ) :
    (((grouped key t).find? fun g => g.1 = k).map Prod.snd).getD [] =
      t.filter fun x => key x = k := by
  cases hfind : (grouped key t).find? fun g => g.1 = k with
  | none =>
    have hnone : ∀ x ∈ t, ¬ key x = k := by
      intro x hx hkey
      have hgroup : (k, t.filter fun y => key y = k) ∈ grouped key t :=
        mem_grouped.mpr ⟨List.mem_map.mpr ⟨x, hx, hkey⟩, rfl⟩
      exact absurd (decide_eq_true rfl) (List.find?_eq_none.mp hfind _ hgroup)
    symm
    apply List.filter_eq_nil_iff.mpr
    intro x hx hkey
    exact hnone x hx (of_decide_eq_true hkey)
  | some g =>
    have hfound := List.find?_some hfind
    have hkey : g.1 = k := of_decide_eq_true hfound
    have hrows := (@mem_grouped α κ _ key t g.1 g.2).mp (List.mem_of_find?_eq_some hfind)
    rw [Option.map_some, Option.getD_some, hrows.2, hkey]

end Grouped

theorem sum_indicator (keys : List κ) (a : κ) :
    (keys.map fun k => if k = a then 1 else 0).sum = keys.count a := by
  induction keys with
  | nil => rfl
  | cons k keys ih =>
    rw [List.map_cons, List.sum_cons, ih, List.count_cons, Nat.add_comm]
    by_cases hk : k = a
    · rw [if_pos hk, if_pos (beq_iff_eq.mpr hk)]
    · rw [if_neg hk, if_neg fun heq => hk (beq_iff_eq.mp heq)]

/-- Each row is counted at its own key and at no other. -/
theorem sum_counts {key : α → κ} {t : List α} {keys : List κ} (hkeys : keys.Nodup)
    (hcover : ∀ x ∈ t, key x ∈ keys) :
    (keys.map fun k => (t.filter fun x => key x = k).length).sum = t.length := by
  induction t with
  | nil =>
    apply List.sum_eq_zero
    intro n hn
    obtain ⟨_, _, rfl⟩ := List.mem_map.mp hn
    rfl
  | cons x t ih =>
    have hx : key x ∈ keys := hcover x List.mem_cons_self
    have hrest := ih fun y hy => hcover y (List.mem_cons_of_mem x hy)
    have hstep (k : κ) : ((x :: t).filter fun y => key y = k).length =
        (if k = key x then 1 else 0) + (t.filter fun y => key y = k).length := by
      rw [List.filter_cons]
      by_cases hk : key x = k
      · rw [if_pos (decide_eq_true hk), if_pos hk.symm, List.length_cons, Nat.add_comm]
      · rw [if_neg (by rwa [decide_eq_true_eq]), if_neg fun heq => hk heq.symm, Nat.zero_add]
    simp only [hstep]
    rw [List.sum_map_add, hrest, List.length_cons, Nat.add_comm]
    congr 1
    rw [sum_indicator, List.count_eq_one_of_mem hkeys hx]

/-- A join with a row that every row has. -/
theorem length_filter_filterMap {β : Type} {f : α → Option β} {t : List α} {p : β → Bool}
    {q : α → Bool} (h : ∀ x ∈ t, ∃ y, f x = some y ∧ p y = q x) :
    ((t.filterMap f).filter p).length = (t.filter q).length := by
  induction t with
  | nil => rfl
  | cons x t ih =>
    obtain ⟨y, hy, hpq⟩ := h x List.mem_cons_self
    have hrest := ih fun z hz => h z (List.mem_cons_of_mem x hz)
    rw [List.filterMap_cons_some hy, List.filter_cons, List.filter_cons, hpq]
    split
    · rw [List.length_cons, List.length_cons, hrest]
    · exact hrest

end Lib
