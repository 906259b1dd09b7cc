import Yuance.Lib.Table

/-!
# Yuance.Lib.Rows

Tables whose rows change where they stand: `List.Forall₂ R t t'` says that each row of `t'` is what
became of the row of `t` at its place.

* `rows_updateWhere`: an update changes rows where they stand.
* `rows_column`, `rows_group`: columns that no row changes, in the table and in a group of it.
* `Grown`: a table with its rows where they stood and at most one row more, under a new key.
-/

namespace Lib

variable {α β κ : Type} {R : α → α → Prop} {t t' t'' : List α}

theorem rows_refl (h : ∀ r, R r r) (t : List α) : List.Forall₂ R t t :=
  List.forall₂_same.mpr fun r _ => h r

theorem rows_trans (htrans : ∀ a b c, R a b → R b c → R a c) (h : List.Forall₂ R t t')
    (h' : List.Forall₂ R t' t'') : List.Forall₂ R t t'' := by
  induction h generalizing t'' with
  | nil =>
    cases h'
    exact .nil
  | cons hab _ ih =>
    cases h' with
    | cons hbc hrest => exact .cons (htrans _ _ _ hab hbc) (ih hrest)

theorem rows_updateWhere {p : α → Bool} {f : α → α} (hrefl : ∀ r, R r r)
    (hf : ∀ r ∈ t, p r = true → R r (f r)) : List.Forall₂ R t (updateWhere p f t) := by
  unfold updateWhere
  apply List.forall₂_map_right_iff.mpr
  apply List.forall₂_same.mpr
  intro r hr
  by_cases hp : p r = true
  · rw [if_pos hp]
    exact hf r hr hp
  · rw [if_neg hp]
    exact hrefl r

/-- Where a row comes from. -/
theorem rows_origin (h : List.Forall₂ R t t') {b : α} (hb : b ∈ t') : ∃ a ∈ t, R a b := by
  induction h with
  | nil => cases hb
  | cons hab _ ih =>
    rcases List.mem_cons.mp hb with rfl | hrest
    · exact ⟨_, List.mem_cons_self, hab⟩
    · obtain ⟨a, ha, hR⟩ := ih hrest
      exact ⟨a, List.mem_cons_of_mem _ ha, hR⟩

/-- What becomes of a row. -/
theorem rows_image (h : List.Forall₂ R t t') {a : α} (ha : a ∈ t) : ∃ b ∈ t', R a b := by
  induction h with
  | nil => cases ha
  | cons hab _ ih =>
    rcases List.mem_cons.mp ha with rfl | hrest
    · exact ⟨_, List.mem_cons_self, hab⟩
    · obtain ⟨b, hb, hR⟩ := ih hrest
      exact ⟨b, List.mem_cons_of_mem _ hb, hR⟩

theorem rows_column {k : α → β} (hk : ∀ a b, R a b → k b = k a) (h : List.Forall₂ R t t') :
    t'.map k = t.map k := by
  induction h with
  | nil => rfl
  | cons hab _ ih => rw [List.map_cons, List.map_cons, hk _ _ hab, ih]

/-- The column of the rows with one key. -/
def group [BEq κ] (key : α → κ) (column : α → β) (t : List α) (k : κ) : List β :=
  (t.filter fun r => key r == k).map column

theorem rows_group [BEq κ] {key : α → κ} {column : α → β} (hkey : ∀ a b, R a b → key b = key a)
    (hcolumn : ∀ a b, R a b → column b = column a) (h : List.Forall₂ R t t') (k : κ) :
    group key column t' k = group key column t k := by
  unfold group
  induction h with
  | nil => rfl
  | cons hab _ ih =>
    rw [List.filter_cons, List.filter_cons, hkey _ _ hab]
    split
    · rw [List.map_cons, List.map_cons, hcolumn _ _ hab, ih]
    · exact ih

section Group

variable [BEq κ] [LawfulBEq κ] {key : α → κ} {column : α → β}

theorem mem_group {b : β} {k : κ} :
    b ∈ group key column t k ↔ ∃ r ∈ t, key r = k ∧ column r = b := by
  unfold group
  rw [List.mem_map]
  constructor
  · rintro ⟨r, hr, hb⟩
    obtain ⟨hmem, hkey⟩ := List.mem_filter.mp hr
    exact ⟨r, hmem, eq_of_beq hkey, hb⟩
  · rintro ⟨r, hmem, hkey, hb⟩
    exact ⟨r, List.mem_filter.mpr ⟨hmem, beq_iff_eq.mpr hkey⟩, hb⟩

theorem group_append_same {r : α} : group key column (t ++ [r]) (key r) =
    group key column t (key r) ++ [column r] := by
  have hself : (key r == key r) = true := beq_self_eq_true _
  unfold group
  rw [List.filter_append, List.map_append, List.filter_cons, if_pos hself]
  rfl

theorem group_append_other {r : α} {k : κ} (h : key r ≠ k) :
    group key column (t ++ [r]) k = group key column t k := by
  unfold group
  rw [List.filter_append, List.filter_cons_of_neg (by rwa [beq_iff_eq]), List.filter_nil,
    List.append_nil]

/-- Two rows of one group with distinct columns are equal when the columns are. -/
theorem eq_of_group {k : κ} (h : (group key column t k).Nodup) {a b : α} (ha : a ∈ t) (hb : b ∈ t)
    (hka : key a = k) (hkb : key b = k) (hcolumn : column a = column b) : a = b :=
  List.inj_on_of_nodup_map h (List.mem_filter.mpr ⟨ha, beq_iff_eq.mpr hka⟩)
    (List.mem_filter.mpr ⟨hb, beq_iff_eq.mpr hkb⟩) hcolumn

end Group

/-! ## Tables that grow -/

section Grown

variable {α κ : Type} {R : α → α → Prop} {key : α → κ} {t t' : List α}

variable (R key t) in
/-- Rows change where they stand, and a new row has a new key. -/
inductive Grown : List α → Prop where
  | kept {q : List α} (h : List.Forall₂ R t q) : Grown q
  | added {q : List α} {b : α} (h : List.Forall₂ R t q) (hfresh : ∀ a ∈ q, key a ≠ key b) :
      Grown (q ++ [b])

theorem Grown.nodup (hkey : ∀ a b, R a b → key b = key a) (h : Grown R key t t')
    (hnodup : (t.map key).Nodup) : (t'.map key).Nodup := by
  cases h with
  | kept h =>
    rw [rows_column hkey h]
    exact hnodup
  | @added q b h hfresh =>
    rw [List.map_append, rows_column hkey h]
    refine List.Nodup.append hnodup (List.nodup_singleton _) (List.disjoint_singleton.mpr ?_)
    rw [← rows_column hkey h]
    intro hmem
    obtain ⟨a, ha, heq⟩ := List.mem_map.mp hmem
    exact hfresh a ha heq

theorem Grown.keys (hkey : ∀ a b, R a b → key b = key a) (h : Grown R key t t') {k : κ}
    (hk : k ∈ t.map key) : k ∈ t'.map key := by
  cases h with
  | kept h =>
    rw [rows_column hkey h]
    exact hk
  | added h _ =>
    rw [List.map_append, rows_column hkey h]
    exact List.mem_append_left _ hk

/-- A row under an old key is what became of one. -/
theorem Grown.origin (hkey : ∀ a b, R a b → key b = key a) (h : Grown R key t t') {b : α}
    (hb : b ∈ t') (hk : key b ∈ t.map key) : ∃ a ∈ t, R a b := by
  cases h with
  | kept h => exact rows_origin h hb
  | @added q b' h hfresh =>
    rcases List.mem_append.mp hb with hold | hnew
    · exact rows_origin h hold
    · obtain rfl := List.mem_singleton.mp hnew
      rw [← rows_column hkey h] at hk
      obtain ⟨a, ha, heq⟩ := List.mem_map.mp hk
      exact absurd heq (hfresh a ha)

end Grown

end Lib
