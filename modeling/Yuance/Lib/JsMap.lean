import Mathlib

/-!
# Yuance.Lib.JsMap

`Map` and `Set` of JavaScript: the entries in the order of insertion, one for each key.

* `JsMap.get_eq_some`: what `get` finds is in the list.
* `JsMap.perm_delete`: `delete` takes out one entry.
* `setAdd`: `Set.prototype.add`.
-/

namespace Lib

structure JsMap (κ ν : Type) where
  toList : List (κ × ν)
  nodup : (toList.map Prod.fst).Nodup

namespace JsMap

variable {κ ν : Type}

def empty : JsMap κ ν := ⟨[], List.nodup_nil⟩

def size (m : JsMap κ ν) : Nat := m.toList.length

def values (m : JsMap κ ν) : List ν := m.toList.map Prod.snd

variable [DecidableEq κ]

def get (m : JsMap κ ν) (k : κ) : Option ν := (m.toList.find? fun e => e.1 = k).map Prod.snd

def delete (m : JsMap κ ν) (k : κ) : JsMap κ ν where
  toList := m.toList.filter fun e => e.1 ≠ k
  nodup := m.nodup.sublist (List.Sublist.map _ List.filter_sublist)

/-- `set` of a key that the map does not have. -/
def append (m : JsMap κ ν) (k : κ) (v : ν) (h : m.get k = none) : JsMap κ ν where
  toList := m.toList ++ [(k, v)]
  nodup := by
    rw [List.map_append]
    refine List.nodup_append'.mpr ⟨m.nodup, List.nodup_singleton k, ?_⟩
    intro x hx hk
    obtain rfl := List.mem_singleton.mp hk
    obtain ⟨e, he, rfl⟩ := List.mem_map.mp hx
    have hnone := List.find?_eq_none.mp (Option.map_eq_none_iff.mp h) e he
    exact hnone (decide_eq_true rfl)

variable {m : JsMap κ ν} {k k' : κ} {v : ν}

theorem get_eq_some : m.get k = some v ↔ (k, v) ∈ m.toList := by
  constructor
  · intro h
    obtain ⟨e, he, rfl⟩ := Option.map_eq_some_iff.mp h
    have hkey : e.1 = k := by simpa using List.find?_some he
    rw [← hkey]
    exact List.mem_of_find?_eq_some he
  · intro h
    cases hf : m.toList.find? fun e => e.1 = k with
    | none => exact absurd (decide_eq_true rfl) (List.find?_eq_none.mp hf (k, v) h)
    | some e =>
      have hkey : e.1 = k := by simpa using List.find?_some hf
      have he := List.inj_on_of_nodup_map m.nodup (List.mem_of_find?_eq_some hf) h hkey
      unfold get
      rw [hf, he]
      rfl

theorem get_delete_of_ne (h : k' ≠ k) : (m.delete k).get k' = m.get k' := by
  apply Option.ext
  intro v
  rw [get_eq_some, get_eq_some]
  unfold delete
  rw [List.mem_filter]
  exact and_iff_left (decide_eq_true h)

theorem perm_delete (h : m.get k = some v) : m.toList.Perm ((k, v) :: (m.delete k).toList) := by
  have hmem := get_eq_some.mp h
  have hnodup : m.toList.Nodup := m.nodup.of_map
  refine (List.perm_ext_iff_of_nodup hnodup ?_).mpr ?_
  · refine List.nodup_cons.mpr ⟨?_, (m.delete k).nodup.of_map⟩
    intro hin
    exact of_decide_eq_true (List.mem_filter.mp hin).2 rfl
  · intro e
    rw [List.mem_cons]
    unfold delete
    rw [List.mem_filter]
    by_cases hkey : e.1 = k
    · constructor
      · intro he
        exact .inl (List.inj_on_of_nodup_map m.nodup he hmem hkey)
      · rintro (rfl | he)
        · exact hmem
        · exact he.1
    · constructor
      · intro he
        exact .inr ⟨he, decide_eq_true hkey⟩
      · rintro (rfl | he)
        · exact absurd rfl hkey
        · exact he.1

theorem perm_values_delete (h : m.get k = some v) : m.values.Perm (v :: (m.delete k).values) :=
  (perm_delete h).map Prod.snd

theorem values_append (h : m.get k = none) : (m.append k v h).values = m.values ++ [v] := by
  unfold values append
  rw [List.map_append]
  rfl

end JsMap

variable {α : Type} [DecidableEq α]

/-- `set.add(a)`. -/
def setAdd (set : List α) (a : α) : List α := if a ∈ set then set else set ++ [a]

theorem setAdd_of_not_mem {set : List α} {a : α} (h : a ∉ set) : setAdd set a = set ++ [a] :=
  if_neg h

/-- `for (const a of added) set.add(a)`. -/
theorem foldl_setAdd {set added : List α} (h : (set ++ added).Nodup) :
    added.foldl setAdd set = set ++ added := by
  induction added generalizing set with
  | nil => exact (List.append_nil set).symm
  | cons a added ih =>
    have hnew : a ∉ set := fun ha =>
      (List.nodup_append'.mp h).2.2 ha List.mem_cons_self
    rw [List.foldl_cons, setAdd_of_not_mem hnew]
    rw [← List.singleton_append, ← List.append_assoc] at h
    rw [ih h, List.append_assoc]
    rfl

end Lib
