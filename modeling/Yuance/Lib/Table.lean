import Mathlib

/-!
# Yuance.Lib.Table

Database tables as lists of rows. A statement `UPDATE .. WHERE p` is `updateWhere p f`; a key is a
function of the row, and an update that leaves the key of every row alone leaves the list of keys
alone.
-/

namespace Lib

variable {α β γ : Type}

/-- `UPDATE t SET f WHERE p`. -/
def updateWhere (p : α → Bool) (f : α → α) (t : List α) : List α :=
  t.map fun r => if p r then f r else r

/-- A row behind the insertion of `a`. -/
theorem getElem?_concat {l : List α} {a b : α} {i : Nat}
    (h : (l ++ [a])[i]? = some b) : l[i]? = some b ∨ (i = l.length ∧ a = b) := by
  by_cases hi : i < l.length
  · rw [List.getElem?_append_left hi] at h
    exact .inl h
  · have hle : l.length ≤ i := Nat.le_of_not_lt hi
    rw [List.getElem?_append_right hle] at h
    have hlt := (List.getElem?_eq_some_iff.mp h).1
    rw [List.length_singleton] at hlt
    exact .inr ⟨by omega, (List.mem_singleton.mp (List.mem_of_getElem? h)).symm⟩

/-- A row behind the replacement of the `i`-th. -/
theorem set_cases {l : List α} {i j : Nat} {a b : α} (h : (l.set i a)[j]? = some b) :
    (j = i ∧ b = a) ∨ (j ≠ i ∧ l[j]? = some b) := by
  by_cases hij : i = j
  · obtain rfl := hij
    have hlt : i < l.length := by
      rw [← @List.length_set _ _ i a]
      exact (List.getElem?_eq_some_iff.mp h).1
    rw [List.getElem?_set_self hlt] at h
    exact .inl ⟨rfl, (Option.some.inj h).symm⟩
  · rw [List.getElem?_set_ne hij] at h
    exact .inr ⟨fun h => hij h.symm, h⟩

/-- Rows at different positions do not both meet `p`. -/
theorem length_filter_le_one {p : α → Bool} {t : List α}
    (h : ∀ (i j : Nat) a b, t[i]? = some a → t[j]? = some b → p a = true → p b = true → i = j) :
    (t.filter p).length ≤ 1 := by
  induction t with
  | nil => exact Nat.zero_le 1
  | cons a t ih =>
    by_cases ha : p a = true
    · have hnone : t.filter p = [] := by
        rw [List.filter_eq_nil_iff]
        intro b hb hpb
        obtain ⟨j, hj⟩ := List.mem_iff_getElem?.mp hb
        exact absurd (h 0 (j + 1) a b rfl hj ha hpb) (by omega)
      rw [List.filter_cons_of_pos ha, hnone]
      exact Nat.le_refl 1
    · rw [List.filter_cons_of_neg ha]
      refine ih fun i j b c hb hc hpb hpc => ?_
      exact Nat.succ.inj (h (i + 1) (j + 1) b c hb hc hpb hpc)

/-- `ORDER BY`, by a test that `a` may stand before `b`. -/
def orderBy (le : α → α → Bool) (t : List α) : List α := t.insertionSort fun a b => le a b = true

theorem mem_orderBy {le : α → α → Bool} {t : List α} {r : α} : r ∈ orderBy le t ↔ r ∈ t :=
  List.mem_insertionSort _

section Head

variable {le : α → α → Bool} {t : List α} {r : α}

/-- The first row may stand before every row. -/
theorem orderBy_head_le (htotal : ∀ a b, le a b = true ∨ le b a = true)
    (htrans : ∀ a b c, le a b = true → le b c = true → le a c = true)
    (h : (orderBy le t).head? = some r) : ∀ x ∈ t, le r x = true := by
  intro x hx
  have : Std.Total fun a b => le a b = true := ⟨htotal⟩
  have : IsTrans α fun a b => le a b = true := ⟨htrans⟩
  have hsorted : (orderBy le t).Pairwise fun a b => le a b = true :=
    List.pairwise_insertionSort _ t
  obtain ⟨rest, hrest⟩ := List.head?_eq_some_iff.mp h
  have hin : x ∈ orderBy le t := mem_orderBy.mpr hx
  rw [hrest] at hin hsorted
  rcases List.mem_cons.mp hin with rfl | hlater
  · rcases htotal x x with hle | hle
    · exact hle
    · exact hle
  · exact (List.pairwise_cons.mp hsorted).1 x hlater

/-- A row that no other row may stand before is the first one. -/
theorem orderBy_head_eq (htotal : ∀ a b, le a b = true ∨ le b a = true)
    (htrans : ∀ a b c, le a b = true → le b c = true → le a c = true) (hr : r ∈ t)
    (hfirst : ∀ x ∈ t, le x r = true → x = r) : (orderBy le t).head? = some r := by
  cases hhead : (orderBy le t).head? with
  | none =>
    have hin : r ∈ orderBy le t := mem_orderBy.mpr hr
    rw [List.head?_eq_none_iff.mp hhead] at hin
    cases hin
  | some x =>
    have hx : x ∈ t := mem_orderBy.mp (List.mem_of_mem_head? hhead)
    rw [hfirst x hx (orderBy_head_le htotal htrans hhead r hr)]

end Head

/-- `ORDER BY key DESC, key' DESC`. -/
def descending [LinearOrder β] [LinearOrder γ] (key : α → β) (key' : α → γ) (a b : α) : Bool :=
  decide (key b < key a) || decide (key a = key b ∧ key' b ≤ key' a)

section Descending

variable [LinearOrder β] [LinearOrder γ] {key : α → β} {key' : α → γ}

theorem descending_iff {a b : α} :
    descending key key' a b = true ↔ key b < key a ∨ key a = key b ∧ key' b ≤ key' a := by
  unfold descending
  rw [Bool.or_eq_true, decide_eq_true_eq, decide_eq_true_eq]

theorem descending_total (a b : α) :
    descending key key' a b = true ∨ descending key key' b a = true := by
  rw [descending_iff, descending_iff]
  rcases lt_trichotomy (key a) (key b) with hlt | heq | hgt
  · exact .inr (.inl hlt)
  · rcases le_total (key' a) (key' b) with hle | hle
    · exact .inr (.inr ⟨heq.symm, hle⟩)
    · exact .inl (.inr ⟨heq, hle⟩)
  · exact .inl (.inl hgt)

theorem descending_trans (a b c : α) (hab : descending key key' a b = true)
    (hbc : descending key key' b c = true) : descending key key' a c = true := by
  rw [descending_iff] at hab hbc ⊢
  rcases hab with hab | ⟨hab, hab'⟩
  · rcases hbc with hbc | ⟨hbc, _⟩
    · exact .inl (hbc.trans hab)
    · exact .inl (hbc ▸ hab)
  · rcases hbc with hbc | ⟨hbc, hbc'⟩
    · exact .inl (hab ▸ hbc)
    · exact .inr ⟨hab.trans hbc, hbc'.trans hab'⟩

end Descending

/-- `SELECT label, COUNT(*) .. GROUP BY label ORDER BY COUNT(*) DESC, label DESC LIMIT 1`. -/
def topGroup [LinearOrder β] (labels : List β) : Option (β × Nat) :=
  (orderBy (fun x y => decide (y.2 < x.2) || decide (x.2 = y.2 ∧ y.1 ≤ x.1))
    (labels.dedup.map fun label => (label, labels.count label))).head?

theorem topGroup_eq_none [LinearOrder β] {labels : List β} :
    topGroup labels = none ↔ labels = [] := by
  unfold topGroup orderBy
  rw [List.head?_eq_none_iff, ← List.length_eq_zero_iff, List.length_insertionSort,
    List.length_map, List.length_eq_zero_iff, List.dedup_eq_nil]

/-- The first group is that of a label, and no label is more frequent. -/
theorem topGroup_eq_some [LinearOrder β] {labels : List β} {top : β × Nat}
    (h : topGroup labels = some top) :
    top.1 ∈ labels ∧ top.2 = labels.count top.1 ∧ ∀ label, labels.count label ≤ top.2 := by
  let groups := labels.dedup.map fun label => (label, labels.count label)
  have htop : (orderBy (descending Prod.snd Prod.fst) groups).head? = some top := h
  obtain ⟨label, hlabel, rfl⟩ := List.mem_map.mp (mem_orderBy.mp (List.mem_of_mem_head? htop))
  refine ⟨List.mem_dedup.mp hlabel, rfl, ?_⟩
  intro other
  by_cases hother : other ∈ labels
  · have hgroup : (other, labels.count other) ∈ groups :=
      List.mem_map.mpr ⟨other, List.mem_dedup.mpr hother, rfl⟩
    have hbefore := orderBy_head_le descending_total descending_trans htop _ hgroup
    rcases descending_iff.mp hbefore with hlt | ⟨heq, _⟩
    · exact le_of_lt hlt
    · exact le_of_eq heq.symm
  · rw [List.count_eq_zero_of_not_mem hother]
    exact Nat.zero_le _

/-- A query that keeps some of the rows orders them as they stand among all rows. -/
theorem orderBy_filter {le : α → α → Bool} {t : List α} (p : α → Bool)
    (htotal : ∀ a b, le a b = true ∨ le b a = true)
    (htrans : ∀ a b c, le a b = true → le b c = true → le a c = true)
    (hanti : ∀ a ∈ t, ∀ b ∈ t, le a b = true → le b a = true → a = b) :
    orderBy le (t.filter p) = (orderBy le t).filter p := by
  have : Std.Total fun a b => le a b = true := ⟨htotal⟩
  have : IsTrans α fun a b => le a b = true := ⟨htrans⟩
  have hperm : (orderBy le (t.filter p)).Perm ((orderBy le t).filter p) :=
    (List.perm_insertionSort _ _).trans ((List.perm_insertionSort _ t).filter p).symm
  refine hperm.eq_of_pairwise ?_ (List.pairwise_insertionSort _ _)
    ((List.pairwise_insertionSort _ t).filter p)
  intro a b ha hb
  have ha' := List.mem_filter.mp (mem_orderBy.mp ha)
  have hb' := List.mem_filter.mp hb
  exact hanti a ha'.1 b (mem_orderBy.mp hb'.1)

/-- The pages of `n` rows, one behind the other. -/
theorem flatMap_pages (t : List α) (n pages : Nat) :
    ((List.range pages).flatMap fun i => (t.drop (i * n)).take n) = t.take (pages * n) := by
  induction pages with
  | zero => simp
  | succ k ih =>
    rw [List.range_succ, List.flatMap_append, ih, Nat.succ_mul, List.take_add]
    simp

/-- The first `m` rows are those that meet `q`, if every row does, or if `m` rows do and they come
first. -/
theorem take_eq_filter_iff {q : α → Bool} {t : List α} {m : Nat} (hm : (t.filter q).length ≤ m) :
    t.take m = t.filter q ↔ (∀ r ∈ t, q r = true) ∨
      m = (t.filter q).length ∧ ∀ r ∈ t.take (t.filter q).length, q r = true := by
  constructor
  · intro h
    have hlen := congrArg List.length h
    rw [List.length_take] at hlen
    by_cases hall : t.length ≤ m
    · left
      apply List.length_filter_eq_length_iff.mp
      omega
    · right
      have hmK : m = (t.filter q).length := by omega
      refine ⟨hmK, ?_⟩
      intro r hr
      rw [← hmK, h] at hr
      exact (List.mem_filter.mp hr).2
  · rintro (hall | ⟨rfl, hfirst⟩)
    · have hfilter : t.filter q = t := List.filter_eq_self.mpr hall
      rw [hfilter] at hm ⊢
      exact List.take_of_length_le hm
    · have hsplit : t.take (t.filter q).length ++ (t.drop (t.filter q).length).filter q =
          t.filter q := by
        conv_rhs => rw [← List.take_append_drop (t.filter q).length t, List.filter_append]
        rw [List.filter_eq_self.mpr hfirst]
      have hle := List.length_filter_le q t
      have hlen := congrArg List.length hsplit
      rw [List.length_append, List.length_take] at hlen
      have hnil : (t.drop (t.filter q).length).filter q = [] :=
        List.eq_nil_of_length_eq_zero (by omega)
      rw [hnil, List.append_nil] at hsplit
      exact hsplit

theorem eq_of_map_eq {f : α → β} {l l' : List α} (hf : ∀ a ∈ l, ∀ b ∈ l', f a = f b → a = b)
    (h : l.map f = l'.map f) : l = l' := by
  induction l generalizing l' with
  | nil => exact (List.map_eq_nil_iff.mp h.symm).symm
  | cons a l ih =>
    cases l' with
    | nil => cases h
    | cons b l' =>
      rw [List.map_cons, List.map_cons, List.cons.injEq] at h
      rw [hf a List.mem_cons_self b List.mem_cons_self h.1, ih ?_ h.2]
      intro x hx y hy
      exact hf x (List.mem_cons_of_mem a hx) y (List.mem_cons_of_mem b hy)

theorem mem_updateWhere {p : α → Bool} {f : α → α} {t : List α} {r : α} :
    r ∈ updateWhere p f t ↔ ∃ q ∈ t, r = if p q then f q else q := by
  rw [updateWhere, List.mem_map]
  constructor
  · rintro ⟨q, hq, rfl⟩
    exact ⟨q, hq, rfl⟩
  · rintro ⟨q, hq, rfl⟩
    exact ⟨q, hq, rfl⟩

/-- An update that keeps a key keeps the column of keys. -/
theorem map_updateWhere {p : α → Bool} {f : α → α} (k : α → β) (h : ∀ r, k (f r) = k r)
    (t : List α) : (updateWhere p f t).map k = t.map k := by
  rw [updateWhere, List.map_map]
  apply List.map_congr_left
  intro r _
  simp only [Function.comp_apply]
  split
  · exact h r
  · rfl

/-- The first row that meets `q`, behind an update that `q` does not look at. -/
theorem find?_updateWhere {p q : α → Bool} {f : α → α} (h : ∀ r, q (f r) = q r) (t : List α) :
    (updateWhere p f t).find? q = (t.find? q).map fun r => if p r then f r else r := by
  rw [updateWhere, List.find?_map]
  congr 2
  funext r
  simp only [Function.comp_apply]
  split
  · exact h r
  · rfl

/-- Two rows of a table with distinct keys are equal when their keys are. -/
theorem eq_of_key {k : α → β} {t : List α} (h : (t.map k).Nodup) {a b : α} (ha : a ∈ t) (hb : b ∈ t)
    (hk : k a = k b) : a = b :=
  List.inj_on_of_nodup_map h ha hb hk

/-- The row with a key is found by it. -/
theorem find?_of_mem [BEq β] [LawfulBEq β] {k : α → β} {t : List α} (h : (t.map k).Nodup) {r : α}
    (hr : r ∈ t) : t.find? (k · == k r) = some r := by
  cases hfind : t.find? (k · == k r) with
  | none => exact absurd (beq_self_eq_true (k r)) (List.find?_eq_none.mp hfind r hr)
  | some q =>
    have hkey : (k q == k r) = true := @List.find?_some _ (fun x => k x == k r) _ _ hfind
    rw [eq_of_key h (List.mem_of_find?_eq_some hfind) hr (eq_of_beq hkey)]

/-- The one row with a key. -/
theorem filter_of_key [BEq β] [LawfulBEq β] {k : α → β} {t : List α} (h : (t.map k).Nodup) {r : α}
    (hr : r ∈ t) : t.filter (k · == k r) = [r] := by
  refine List.perm_singleton.mp ((List.perm_ext_iff_of_nodup ?_ (List.nodup_singleton r)).mpr ?_)
  · exact (List.Nodup.of_map k h).filter _
  intro a
  rw [List.mem_filter, List.mem_singleton, beq_iff_eq]
  constructor
  · rintro ⟨ha, hkey⟩
    exact eq_of_key h ha hr hkey
  · rintro rfl
    exact ⟨hr, rfl⟩

/-- The rows that an update meets, apart from the others. -/
theorem updateWhere_perm (p : α → Bool) (f : α → α) (t : List α) :
    (updateWhere p f t).Perm (t.filter (fun r => !p r) ++ (t.filter p).map f) := by
  induction t with
  | nil => exact .refl _
  | cons r t ih =>
    change ((if p r = true then f r else r) :: updateWhere p f t).Perm _
    cases hp : p r with
    | false =>
      rw [if_neg Bool.false_ne_true, List.filter_cons_of_pos (by simp [hp]),
        List.filter_cons_of_neg (by simp [hp])]
      exact ih.cons r
    | true =>
      rw [if_pos rfl, List.filter_cons_of_neg (by simp [hp]), List.filter_cons_of_pos hp]
      exact (ih.cons _).trans List.perm_middle.symm

/-- An update that no row meets changes nothing. -/
theorem updateWhere_eq_self {p : α → Bool} {f : α → α} {t : List α} (h : ∀ r ∈ t, p r = false) :
    updateWhere p f t = t := by
  rw [updateWhere]
  conv_rhs => rw [← List.map_id t]
  apply List.map_congr_left
  intro r hr
  rw [h r hr]
  rfl

end Lib
