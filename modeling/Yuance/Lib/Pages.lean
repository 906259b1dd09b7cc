import Yuance.Lib.Table

/-!
# Yuance.Lib.Pages

A sorted listing that is read page by page, where the order leaves rows that tie in any order, at each
request in another one. A row stands in every listing between the rows that are strictly before it
and those that are not behind it.

* `Listing`: the rows in an order that the sort allows.
* `firstRank`, `lastRank`: the first and the last place of a row in a listing.
* `once_iff`: each row is on one page exactly, whatever the listings, if and only if the places that
  it can have are on one page.
-/

namespace Lib

variable {α : Type} {le : α → α → Bool} {rows l : List α} {r : α} {n : Nat}

/-- The rows, as a query that sorts by `le` may return them. -/
structure Listing (le : α → α → Bool) (rows l : List α) : Prop where
  perm : l.Perm rows
  sorted : l.Pairwise fun a b => le a b = true

/-- The number of rows that every listing has before `r`. -/
def firstRank (le : α → α → Bool) (rows : List α) (r : α) : Nat :=
  rows.countP fun x => le x r && !le r x

/-- The number of the other rows that a listing may have before `r`. -/
def lastRank (le : α → α → Bool) (rows : List α) (r : α) : Nat :=
  (rows.countP fun x => le x r) - 1

/-- The page behind `i` others. -/
def pageAt (n : Nat) (l : List α) (i : Nat) : List α := (l.drop (i * n)).take n

theorem mem_pageAt (hn : 0 < n) {i : Nat} :
    r ∈ pageAt n l i ↔ ∃ j, l[j]? = some r ∧ j / n = i := by
  unfold pageAt
  constructor
  · intro h
    obtain ⟨k, hk⟩ := List.mem_iff_getElem?.mp h
    have hlt : k < n := by
      have := (List.getElem?_eq_some_iff.mp hk).1
      rw [List.length_take] at this
      omega
    rw [List.getElem?_take_of_lt hlt, List.getElem?_drop] at hk
    refine ⟨i * n + k, hk, ?_⟩
    rw [Nat.mul_comm, Nat.mul_add_div hn, Nat.div_eq_of_lt hlt, Nat.add_zero]
  · rintro ⟨j, hj, rfl⟩
    have hlt : j % n < n := Nat.mod_lt j hn
    have hsplit : j / n * n + j % n = j := by
      rw [Nat.mul_comm]
      exact Nat.div_add_mod j n
    refine List.mem_iff_getElem?.mpr ⟨j % n, ?_⟩
    rw [List.getElem?_take_of_lt hlt, List.getElem?_drop, hsplit]
    exact hj

theorem length_pageAt {l' : List α} (h : l.length = l'.length) (i : Nat) :
    (pageAt n l i).length = (pageAt n l' i).length := by
  unfold pageAt
  rw [List.length_take, List.length_take, List.length_drop, List.length_drop, h]

/-- The pages hold as many rows as there are. -/
theorem sum_pages {listing : Nat → List α} {pages : Nat} (h : ∀ i, (listing i).length = rows.length)
    (hpages : rows.length ≤ pages * n) :
    ((List.range pages).map fun i => (pageAt n (listing i) i).length).sum = rows.length := by
  have hsame : ((List.range pages).map fun i => (pageAt n (listing i) i).length) =
      (List.range pages).map fun i => (pageAt n rows i).length :=
    List.map_congr_left fun i _ => length_pageAt (h i) i
  rw [hsame]
  have hall := congrArg List.length (flatMap_pages rows n pages)
  rw [List.length_flatMap, List.take_of_length_le hpages] at hall
  exact hall

/-- The place of a row in a listing. -/
theorem Listing.place (h : Listing le rows l) (hrefl : ∀ a, le a a = true) {j : Nat}
    (hj : l[j]? = some r) : firstRank le rows r ≤ j ∧ j ≤ lastRank le rows r := by
  obtain ⟨hlt, hget⟩ := List.getElem?_eq_some_iff.mp hj
  have hsplit : l = l.take j ++ r :: l.drop (j + 1) := by
    rw [← hget, List.cons_getElem_drop_succ, List.take_append_drop]
  have hsorted := h.sorted
  rw [hsplit, List.pairwise_append, List.pairwise_cons] at hsorted
  obtain ⟨_, ⟨hafter, _⟩, hbefore⟩ := hsorted
  have hlength : (l.take j).length = j := by
    rw [List.length_take]
    omega
  constructor
  · unfold firstRank
    rw [← h.perm.countP_eq, hsplit, List.countP_append, List.countP_cons]
    have hself : (le r r && !le r r) = false := by rw [hrefl r]; rfl
    have hrest : (l.drop (j + 1)).countP (fun x => le x r && !le r x) = 0 := by
      rw [List.countP_eq_zero]
      intro x hx
      rw [hafter x hx]
      simp
    rw [hself, hrest]
    have := List.countP_le_length (p := fun x => le x r && !le r x) (l := l.take j)
    simp only [Bool.false_eq_true, if_false]
    omega
  · unfold lastRank
    rw [← h.perm.countP_eq, hsplit, List.countP_append, List.countP_cons]
    have hall : (l.take j).countP (fun x => le x r) = (l.take j).length := by
      rw [List.countP_eq_length]
      intro x hx
      exact hbefore x hx r List.mem_cons_self
    rw [hall, hlength, hrefl r]
    simp only [if_true]
    omega

/-- The places of a row are as many as the rows that tie with it. -/
theorem lastRank_succ (hrefl : ∀ a, le a a = true) (hr : r ∈ rows) :
    lastRank le rows r + 1 = firstRank le rows r + rows.countP fun x => le x r && le r x := by
  have hsum : (rows.countP fun x => le x r) = (rows.countP fun x => le x r && !le r x) +
      rows.countP fun x => le x r && le r x := by
    rw [List.countP_eq_countP_filter_add rows (fun x => le x r) fun x => !le r x]
    simp only [List.countP_filter, Bool.not_not]
  have hpos : 0 < rows.countP fun x => le x r := List.countP_pos_iff.mpr ⟨r, hr, hrefl r⟩
  unfold lastRank firstRank
  omega

section Ties

variable (htotal : ∀ a b, le a b = true ∨ le b a = true)
  (htrans : ∀ a b c, le a b = true → le b c = true → le a c = true)

theorem orderBy_sorted (htotal : ∀ a b, le a b = true ∨ le b a = true)
    (htrans : ∀ a b c, le a b = true → le b c = true → le a c = true) (t : List α) :
    (orderBy le t).Pairwise fun a b => le a b = true := by
  have : Std.Total fun a b => le a b = true := ⟨htotal⟩
  have : IsTrans α fun a b => le a b = true := ⟨htrans⟩
  exact List.pairwise_insertionSort _ t

theorem orderBy_perm (t : List α) : (orderBy le t).Perm t := List.perm_insertionSort _ t

include htotal htrans in
/-- The rows that tie with `r` may stand in any order. -/
theorem listing_of_ties {ties : List α}
    (hties : ties.Perm (rows.filter fun x => le x r && le r x)) :
    Listing le rows (orderBy le (rows.filter fun x => le x r && !le r x) ++
      (ties ++ orderBy le (rows.filter fun x => !le x r))) := by
  have hbefore : ∀ x ∈ orderBy le (rows.filter fun x => le x r && !le r x), le x r = true := by
    intro x hx
    have := (List.mem_filter.mp (mem_orderBy.mp hx)).2
    rw [Bool.and_eq_true] at this
    exact this.1
  have htied : ∀ x ∈ ties, le x r = true ∧ le r x = true := by
    intro x hx
    have := (List.mem_filter.mp (hties.mem_iff.mp hx)).2
    rwa [Bool.and_eq_true] at this
  have hafter : ∀ x ∈ orderBy le (rows.filter fun x => !le x r), le r x = true := by
    intro x hx
    have := (List.mem_filter.mp (mem_orderBy.mp hx)).2
    rw [Bool.not_eq_true'] at this
    rcases htotal r x with h | h
    · exact h
    · rw [h] at this
      cases this
  constructor
  · have hsplit : ((rows.filter fun x => le x r).filter (fun x => !le r x) ++
        (rows.filter fun x => le x r).filter fun x => !!le r x).Perm
        (rows.filter fun x => le x r) := List.filter_append_perm _ _
    have hrows : ((rows.filter fun x => le x r) ++ rows.filter fun x => !le x r).Perm rows :=
      List.filter_append_perm _ _
    simp only [List.filter_filter, Bool.not_not, Bool.and_comm] at hsplit
    refine ((orderBy_perm _).append (hties.append (orderBy_perm _))).trans ?_
    rw [← List.append_assoc]
    refine (List.Perm.append_right _ ?_).trans hrows
    simpa only [Bool.and_comm] using hsplit
  · rw [List.pairwise_append, List.pairwise_append]
    refine ⟨orderBy_sorted htotal htrans _, ⟨?_, orderBy_sorted htotal htrans _, ?_⟩, ?_⟩
    · rw [List.pairwise_iff_getElem]
      intro i j hi hj _
      exact htrans _ r _ (htied _ (List.getElem_mem hi)).1 (htied _ (List.getElem_mem hj)).2
    · intro x hx y hy
      exact htrans x r y (htied x hx).1 (hafter y hy)
    · intro x hx y hy
      rcases List.mem_append.mp hy with hy | hy
      · exact htrans x r y (hbefore x hx) (htied y hy).2
      · exact htrans x r y (hbefore x hx) (hafter y hy)

variable [DecidableEq α]

include htotal htrans in
/-- A row can have its first place and its last. -/
theorem exists_listing (hrefl : ∀ a, le a a = true) (hr : r ∈ rows) :
    (∃ l, Listing le rows l ∧ l[firstRank le rows r]? = some r) ∧
      ∃ l, Listing le rows l ∧ l[lastRank le rows r]? = some r := by
  have hin : r ∈ rows.filter fun x => le x r && le r x :=
    List.mem_filter.mpr ⟨hr, by rw [hrefl]; rfl⟩
  have hlength : (orderBy le (rows.filter fun x => le x r && !le r x)).length = firstRank le rows r := by
    unfold firstRank
    rw [(orderBy_perm _).length_eq, List.countP_eq_length_filter]
  constructor
  · refine ⟨_, listing_of_ties htotal htrans (List.perm_cons_erase hin).symm, ?_⟩
    rw [← hlength, List.getElem?_append_right (Nat.le_refl _), Nat.sub_self]
    rfl
  · have hlast : ((rows.filter fun x => le x r && le r x).erase r ++ [r]).Perm
        (rows.filter fun x => le x r && le r x) :=
      (List.perm_append_singleton _ _).trans (List.perm_cons_erase hin).symm
    refine ⟨_, listing_of_ties htotal htrans hlast, ?_⟩
    have hcount : lastRank le rows r = firstRank le rows r +
        ((rows.filter fun x => le x r && le r x).erase r).length := by
      have hties := lastRank_succ hrefl hr
      rw [List.countP_eq_length_filter] at hties
      rw [List.length_erase_of_mem hin]
      have := List.length_pos_of_mem hin
      omega
    rw [hcount, ← hlength, List.getElem?_append_right (Nat.le_add_right _ _), Nat.add_sub_cancel_left,
      List.append_assoc, List.getElem?_append_right (Nat.le_refl _), Nat.sub_self]
    rfl

include htotal htrans in
/-- Each row is on one page exactly, however the rows that tie stand at each request. -/
theorem once_iff (hrefl : ∀ a, le a a = true) (hn : 0 < n) :
    (∀ listing : Nat → List α, (∀ i, Listing le rows (listing i)) →
        ∀ r ∈ rows, ∃! i, r ∈ pageAt n (listing i) i) ↔
      ∀ r ∈ rows, firstRank le rows r / n = lastRank le rows r / n := by
  constructor
  · intro honce r hr
    obtain ⟨⟨l, hl, hfirst⟩, l', hl', hlast⟩ := exists_listing htotal htrans hrefl hr
    by_contra hne
    obtain ⟨i, _, hunique⟩ := honce (fun i => if i = firstRank le rows r / n then l else l')
      (fun i => by split <;> assumption) r hr
    have h1 := hunique (firstRank le rows r / n) (by
      dsimp only
      rw [if_pos rfl]
      exact (mem_pageAt hn).mpr ⟨_, hfirst, rfl⟩)
    have h2 := hunique (lastRank le rows r / n) (by
      dsimp only
      rw [if_neg (Ne.symm hne)]
      exact (mem_pageAt hn).mpr ⟨_, hlast, rfl⟩)
    exact hne (h1.trans h2.symm)
  · intro hplaces listing hlisting r hr
    have hpage : ∀ i j : Nat, (listing i)[j]? = some r → j / n = firstRank le rows r / n := by
      intro i j hj
      obtain ⟨hfirst, hlast⟩ := (hlisting i).place hrefl hj
      have h1 := Nat.div_le_div_right (c := n) hfirst
      have h2 := Nat.div_le_div_right (c := n) hlast
      have h3 := hplaces r hr
      omega
    refine ⟨firstRank le rows r / n, ?_, ?_⟩
    · obtain ⟨j, hj⟩ := List.mem_iff_getElem?.mp
        ((hlisting (firstRank le rows r / n)).perm.mem_iff.mpr hr)
      exact (mem_pageAt hn).mpr ⟨j, hj, hpage _ j hj⟩
    · intro i hi
      obtain ⟨j, hj, rfl⟩ := (mem_pageAt hn).mp hi
      exact hpage _ j hj

end Ties

end Lib
