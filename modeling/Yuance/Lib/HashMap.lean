import Mathlib
import Yuance.Lib.JsMap

/-!
# Yuance.Lib.HashMap

The operations of a map whose entries have no order, on the entries in the order that they happen to
be visited in.

* `get_insert`, `get_retain`: what is found after an entry is set or the entries are filtered.
-/

namespace Lib
namespace JsMap

variable {κ ν : Type} [DecidableEq κ]

theorem get_delete (m : JsMap κ ν) (k : κ) : (m.delete k).get k = none := by
  cases hget : (m.delete k).get k with
  | none => rfl
  | some v =>
    have hmem := (List.mem_filter.mp (get_eq_some.mp hget)).2
    exact absurd rfl (of_decide_eq_true hmem)

def insert (m : JsMap κ ν) (k : κ) (v : ν) : JsMap κ ν := (m.delete k).append k v (get_delete m k)

def retain (m : JsMap κ ν) (p : κ → ν → Bool) : JsMap κ ν where
  toList := m.toList.filter fun e => p e.1 e.2
  nodup := m.nodup.sublist (List.Sublist.map _ List.filter_sublist)

def mapValues (m : JsMap κ ν) (f : ν → ν) : JsMap κ ν where
  toList := m.toList.map fun e => (e.1, f e.2)
  nodup := by
    rw [List.map_map]
    exact m.nodup

variable {m : JsMap κ ν} {k k' : κ} {v v' : ν}

theorem get_append (h : m.get k = none) (v : ν) (k' : κ) :
    (m.append k v h).get k' = if k' = k then some v else m.get k' := by
  apply Option.ext
  intro v'
  rw [get_eq_some]
  unfold append
  rw [List.mem_append, List.mem_singleton, Prod.mk.injEq]
  by_cases hkey : k' = k
  · rw [if_pos hkey, Option.some.injEq]
    constructor
    · rintro (hold | ⟨_, rfl⟩)
      · rw [hkey, ← get_eq_some, h] at hold
        cases hold
      · rfl
    · rintro rfl
      exact .inr ⟨hkey, rfl⟩
  · rw [if_neg hkey, get_eq_some]
    exact ⟨fun hor => hor.elim id fun ⟨heq, _⟩ => absurd heq hkey, .inl⟩

theorem get_insert (m : JsMap κ ν) (k : κ) (v : ν) (k' : κ) :
    (m.insert k v).get k' = if k' = k then some v else m.get k' := by
  unfold insert
  rw [get_append]
  by_cases hkey : k' = k
  · rw [if_pos hkey, if_pos hkey]
  · rw [if_neg hkey, if_neg hkey, get_delete_of_ne hkey]

theorem get_retain (m : JsMap κ ν) (p : κ → ν → Bool) (k : κ) :
    (m.retain p).get k = (m.get k).filter (p k) := by
  apply Option.ext
  intro v
  rw [get_eq_some, Option.filter_eq_some_iff, get_eq_some]
  unfold retain
  exact List.mem_filter

theorem get_mapValues (m : JsMap κ ν) (f : ν → ν) (k : κ) :
    (m.mapValues f).get k = (m.get k).map f := by
  apply Option.ext
  intro v
  rw [get_eq_some, Option.map_eq_some_iff]
  unfold mapValues
  rw [List.mem_map]
  constructor
  · rintro ⟨⟨k', w⟩, hmem, heq⟩
    obtain ⟨rfl, rfl⟩ := Prod.mk.inj heq
    exact ⟨w, get_eq_some.mpr hmem, rfl⟩
  · rintro ⟨w, hget, rfl⟩
    exact ⟨(k, w), get_eq_some.mp hget, rfl⟩

theorem size_eq_zero : m.size = 0 ↔ ∀ k, m.get k = none := by
  constructor
  · intro h k
    cases hget : m.get k with
    | none => rfl
    | some v =>
      have hmem := get_eq_some.mp hget
      rw [List.length_eq_zero_iff.mp h] at hmem
      cases hmem
  · intro h
    cases hlist : m.toList with
    | nil =>
      unfold size
      rw [hlist]
      rfl
    | cons e rest =>
      have hmem : (e.1, e.2) ∈ m.toList := by
        rw [hlist]
        exact List.mem_cons_self
      rw [← get_eq_some, h] at hmem
      cases hmem

theorem mem_values : v ∈ m.values ↔ ∃ k, m.get k = some v := by
  unfold values
  rw [List.mem_map]
  constructor
  · rintro ⟨⟨k, w⟩, hmem, rfl⟩
    exact ⟨k, get_eq_some.mpr hmem⟩
  · rintro ⟨k, hget⟩
    exact ⟨(k, v), get_eq_some.mp hget, rfl⟩

end JsMap
end Lib
