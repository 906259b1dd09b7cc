import Yuance.Lib.Scan

/-!
# Yuance.Lib.Search

Texts between markers, as loops around `str::find` and `str::split` cut them out.

* `cutLast`, `splitText`, `between`: at the last occurrence, at all of them, between two markers.
* `cutAt_append`: markers that cannot overlap are found one after the other.
* `cutAt_padded`, `between_padded`: characters around the text that stand in no marker.
-/

namespace Lib

/-- What stands before the last occurrence of `marker` and behind it. -/
def cutLast (marker l : List Char) : Option (List Char × List Char) :=
  (cutAt marker.reverse l.reverse).map fun cut => (cut.2.reverse, cut.1.reverse)

def pieces (marker : List Char) : Nat → List Char → List (List Char)
  | 0, l => [l]
  | fuel + 1, l =>
    match cutAt marker l with
    | none => [l]
    | some (before, behind) => before :: pieces marker fuel behind

/-- `value.split(marker)`. -/
def splitText (marker l : List Char) : List (List Char) := pieces marker l.length l

/-- `value.split(marker).next()`. -/
def firstPiece (marker l : List Char) : List Char :=
  match cutAt marker l with
  | none => l
  | some (before, _) => before

/-- The texts from each `first` to the next `last`, one behind the other. -/
def between (first last : List Char) : Nat → List Char → List (List Char)
  | 0, _ => []
  | fuel + 1, l =>
    match cutAt first l with
    | none => []
    | some (_, after) =>
      match cutAt last after with
      | none => []
      | some (value, rest) => value :: between first last fuel rest

variable {marker l : List Char}

theorem cutLast_eq_some {before behind : List Char} (h : cutLast marker l = some (before, behind)) :
    l = before ++ marker ++ behind := by
  unfold cutLast at h
  obtain ⟨cut, hcut, heq⟩ := Option.map_eq_some_iff.mp h
  cases heq
  have hrev := congrArg List.reverse (cutAt_eq_some hcut)
  rw [List.reverse_reverse, List.reverse_append, List.reverse_append, List.reverse_reverse] at hrev
  rw [hrev, List.append_assoc]

/-! ## Markers that are passed over -/

/-- The two texts differ at a place that both have. -/
def mismatch : List Char → List Char → Bool
  | m :: ms, c :: cs => m ≠ c || mismatch ms cs
  | _, _ => false

/-- The marker begins nowhere in the text, whatever follows. -/
def skips (marker : List Char) : List Char → Bool
  | [] => true
  | c :: cs => mismatch marker (c :: cs) && skips marker cs

theorem not_isPrefixOf_of_mismatch {text : List Char} (rest : List Char)
    (h : mismatch marker text = true) : marker.isPrefixOf (text ++ rest) = false := by
  induction text generalizing marker with
  | nil =>
    cases marker with
    | nil => cases h
    | cons m ms => cases h
  | cons c cs ih =>
    cases marker with
    | nil => cases h
    | cons m ms =>
      unfold mismatch at h
      rw [List.cons_append, List.isPrefixOf]
      by_cases hm : m = c
      · rw [hm, decide_eq_false (not_not_intro rfl), Bool.false_or] at h
        rw [ih h, Bool.and_false]
      · rw [beq_false_of_ne hm, Bool.false_and]

theorem cutAt_skip {text : List Char} (rest : List Char) (h : skips marker text = true) :
    cutAt marker (text ++ rest) = (cutAt marker rest).map fun cut => (text ++ cut.1, cut.2) := by
  induction text with
  | nil =>
    rw [List.nil_append]
    cases cutAt marker rest with
    | none => rfl
    | some cut => rfl
  | cons c cs ih =>
    unfold skips at h
    rw [Bool.and_eq_true] at h
    have hnot := not_isPrefixOf_of_mismatch rest h.1
    rw [List.cons_append] at hnot
    rw [List.cons_append, cutAt, hnot, if_neg Bool.false_ne_true, ih h.2, Option.map_map]
    rfl

theorem cutAt_self (hmarker : marker ≠ []) (rest : List Char) :
    cutAt marker (marker ++ rest) = some ([], rest) := by
  cases marker with
  | nil => exact absurd rfl hmarker
  | cons m ms =>
    have hprefix : (m :: ms).isPrefixOf (m :: (ms ++ rest)) = true :=
      List.isPrefixOf_iff_prefix.mpr ⟨rest, rfl⟩
    rw [List.cons_append, cutAt, if_pos hprefix, ← List.cons_append, List.drop_left]

/-- An occurrence is the first, or there is one before it that does not touch it. -/
theorem cutAt_append {m : Char} {ms : List Char} (hm : m ∉ ms) (before behind : List Char) :
    cutAt (m :: ms) (before ++ (m :: ms) ++ behind) = some (before, behind) ∨
    ∃ first second, before = first ++ (m :: ms) ++ second ∧
      cutAt (m :: ms) (before ++ (m :: ms) ++ behind)
        = some (first, second ++ (m :: ms) ++ behind) := by
  induction before with
  | nil =>
    rw [List.nil_append]
    exact .inl (cutAt_self (List.cons_ne_nil _ _) behind)
  | cons d ds ih =>
    by_cases hprefix : (m :: ms).isPrefixOf (d :: ds ++ (m :: ms) ++ behind) = true
    · obtain ⟨rest, hrest⟩ := List.isPrefixOf_iff_prefix.mp hprefix
      rw [List.append_assoc] at hrest
      rcases List.append_eq_append_iff.mp hrest with
        ⟨second, hbefore, htail⟩ | ⟨shared, hmarker, htail⟩
      · refine .inr ⟨[], second, hbefore, ?_⟩
        have hself := cutAt_self (List.cons_ne_nil m ms) (second ++ (m :: ms) ++ behind)
        rw [hbefore, List.append_assoc, List.append_assoc, ← List.append_assoc second]
        exact hself
      · cases shared with
        | nil =>
          rw [List.append_nil] at hmarker
          refine .inr ⟨[], [], ?_, ?_⟩
          · rw [hmarker, List.append_nil, List.nil_append]
          · rw [← hmarker, List.append_assoc]
            exact cutAt_self (List.cons_ne_nil _ _) _
        | cons s more =>
          -- the marker would begin in itself
          have hms : ms = ds ++ s :: more := (List.cons.inj hmarker).2
          have hs : m = s := (List.cons.inj htail).1
          refine absurd ?_ hm
          rw [hms, hs]
          exact List.mem_append_right _ List.mem_cons_self
    · have hstep : cutAt (m :: ms) (d :: ds ++ (m :: ms) ++ behind)
          = (cutAt (m :: ms) (ds ++ (m :: ms) ++ behind)).map fun cut => (d :: cut.1, cut.2) := by
        rw [List.cons_append, List.cons_append] at hprefix ⊢
        rw [cutAt, if_neg hprefix]
      rw [hstep]
      rcases ih with hfirst | ⟨first, second, hbefore, hcut⟩
      · rw [hfirst]
        exact .inl rfl
      · rw [hcut]
        refine .inr ⟨d :: first, second, ?_, rfl⟩
        rw [hbefore]
        rfl

/-- The piece that begins behind an occurrence. -/
theorem mem_pieces {m : Char} {ms : List Char} (hm : m ∉ ms) {fuel : Nat}
    (before behind : List Char) (hfuel : (before ++ (m :: ms) ++ behind).length ≤ fuel) :
    firstPiece (m :: ms) behind ∈ pieces (m :: ms) fuel (before ++ (m :: ms) ++ behind) := by
  induction fuel generalizing before with
  | zero =>
    rw [List.length_append, List.length_append, List.length_cons] at hfuel
    omega
  | succ fuel ih =>
    unfold pieces
    have hfirst : firstPiece (m :: ms) behind ∈ pieces (m :: ms) fuel behind := by
      unfold firstPiece
      cases fuel with
      | zero =>
        rw [List.length_append, List.length_append, List.length_cons] at hfuel
        have hnil : behind = [] := List.eq_nil_of_length_eq_zero (by omega)
        rw [hnil]
        exact List.mem_singleton_self _
      | succ fuel =>
        unfold pieces
        cases cutAt (m :: ms) behind with
        | none => exact List.mem_singleton_self _
        | some cut => exact List.mem_cons_self
    rcases cutAt_append hm before behind with hcut | ⟨first, second, hbefore, hcut⟩
    · rw [hcut]
      exact List.mem_cons_of_mem _ hfirst
    · rw [hcut]
      refine List.mem_cons_of_mem _ (ih second ?_)
      rw [hbefore] at hfuel
      simp only [List.length_append, List.length_cons] at hfuel ⊢
      omega

/-! ## Characters around the text -/

/-- None of the characters stands in the marker. -/
def Foreign (marker around : List Char) : Prop := ∀ c ∈ around, c ∉ marker

theorem isPrefixOf_foreign {around : List Char} (hforeign : Foreign marker around) :
    marker.isPrefixOf (l ++ around) = marker.isPrefixOf l := by
  induction l generalizing marker with
  | nil =>
    cases marker with
    | nil => cases around <;> rfl
    | cons m ms =>
      cases around with
      | nil => rfl
      | cons c cs =>
        have hne : m ≠ c := by
          intro heq
          exact hforeign c List.mem_cons_self (heq ▸ List.mem_cons_self)
        change (m == c && ms.isPrefixOf cs) = false
        rw [beq_false_of_ne hne, Bool.false_and]
  | cons d ds ih =>
    cases marker with
    | nil => rfl
    | cons m ms =>
      rw [List.cons_append, List.isPrefixOf, List.isPrefixOf, ih]
      intro c hc hmem
      exact hforeign c hc (List.mem_cons_of_mem _ hmem)

theorem cutAt_foreign {around : List Char} (hmarker : marker ≠ [])
    (hforeign : Foreign marker around) : cutAt marker around = none := by
  induction around with
  | nil =>
    unfold cutAt
    exact if_neg hmarker
  | cons c cs ih =>
    have hnot : marker.isPrefixOf (c :: cs) = false := by
      rw [← List.nil_append (c :: cs), isPrefixOf_foreign hforeign]
      cases marker with
      | nil => exact absurd rfl hmarker
      | cons m ms => rfl
    rw [cutAt, hnot, if_neg Bool.false_ne_true,
      ih fun d hd => hforeign d (List.mem_cons_of_mem _ hd)]
    rfl

theorem cutAt_behind {around : List Char} (hmarker : marker ≠ [])
    (hforeign : Foreign marker around) :
    cutAt marker (l ++ around) = (cutAt marker l).map fun cut => (cut.1, cut.2 ++ around) := by
  induction l with
  | nil =>
    rw [List.nil_append, cutAt_foreign hmarker hforeign, cutAt, if_neg hmarker]
    rfl
  | cons c cs ih =>
    rw [List.cons_append, cutAt, cutAt, ← List.cons_append, isPrefixOf_foreign hforeign]
    by_cases hprefix : marker.isPrefixOf (c :: cs) = true
    · rw [if_pos hprefix, if_pos hprefix, Option.map_some]
      have hlength : marker.length ≤ (c :: cs).length :=
        (List.isPrefixOf_iff_prefix.mp hprefix).length_le
      rw [List.drop_append_of_le_length hlength]
    · rw [if_neg hprefix, if_neg hprefix, ih, Option.map_map, Option.map_map]
      rfl

theorem skips_foreign {around : List Char} (hmarker : marker ≠ [])
    (hforeign : Foreign marker around) : skips marker around = true := by
  induction around with
  | nil => rfl
  | cons c cs ih =>
    unfold skips
    rw [ih fun d hd => hforeign d (List.mem_cons_of_mem _ hd), Bool.and_true]
    cases marker with
    | nil => exact absurd rfl hmarker
    | cons m ms =>
      have hne : m ≠ c := by
        intro heq
        exact hforeign c List.mem_cons_self (heq ▸ List.mem_cons_self)
      unfold mismatch
      rw [decide_eq_true hne, Bool.true_or]

theorem cutAt_padded {front back : List Char} (hmarker : marker ≠ [])
    (hfront : Foreign marker front) (hback : Foreign marker back) :
    cutAt marker (front ++ l ++ back)
      = (cutAt marker l).map fun cut => (front ++ cut.1, cut.2 ++ back) := by
  rw [List.append_assoc, cutAt_skip _ (skips_foreign hmarker hfront),
    cutAt_behind hmarker hback, Option.map_map]
  rfl

theorem behind_length {cut : List Char × List Char} (hmarker : marker ≠ [])
    (h : cutAt marker l = some cut) : cut.2.length < l.length := by
  have hlength := length_behind h
  have hpos := List.length_pos_of_ne_nil hmarker
  omega

theorem between_padded {first last front back : List Char} {fuel fuel' : Nat} (hfirst : first ≠ [])
    (hlast : last ≠ []) (hf : Foreign first front) (hf' : Foreign first back)
    (hl : Foreign last back) (hfuel : l.length < fuel)
    (hfuel' : (front ++ l ++ back).length < fuel') :
    between first last fuel' (front ++ l ++ back) = between first last fuel l := by
  induction fuel generalizing l fuel' front with
  | zero => omega
  | succ fuel ih =>
    cases fuel' with
    | zero => omega
    | succ fuel' =>
      unfold between
      rw [cutAt_padded hfirst hf hf']
      cases hcut : cutAt first l with
      | none => rfl
      | some cut =>
        rw [Option.map_some]
        dsimp only
        rw [cutAt_behind hlast hl]
        cases hend : cutAt last cut.2 with
        | none => rfl
        | some ending =>
          rw [Option.map_some]
          dsimp only
          have hcut' := behind_length hfirst hcut
          have hend' := behind_length hlast hend
          simp only [List.length_append] at hfuel'
          have hrest : between first last fuel' ([] ++ ending.2 ++ back)
              = between first last fuel ending.2 :=
            ih (fun _ hc => nomatch hc) (by omega)
              (by simp only [List.nil_append, List.length_append]; omega)
          rw [List.nil_append] at hrest
          rw [hrest]

theorem pieces_of_none {fuel : Nat} (h : cutAt marker l = none) : pieces marker fuel l = [l] := by
  cases fuel with
  | zero => rfl
  | succ fuel =>
    unfold pieces
    rw [h]

/-- A piece of the longer text is one of the shorter, with some of the characters around it. -/
theorem pieces_padded {front back piece : List Char} {fuel fuel' : Nat} (hmarker : marker ≠ [])
    (hfront : Foreign marker front) (hback : Foreign marker back) (hfuel : l.length ≤ fuel)
    (hfuel' : (front ++ l ++ back).length ≤ fuel')
    (h : piece ∈ pieces marker fuel' (front ++ l ++ back)) :
    ∃ before inner behind, inner ∈ pieces marker fuel l ∧ before ⊆ front ∧ behind ⊆ back ∧
      piece = before ++ inner ++ behind := by
  induction fuel' generalizing fuel l front with
  | zero =>
    have hnil : l = [] := by
      simp only [List.length_append] at hfuel'
      exact List.eq_nil_of_length_eq_zero (by omega)
    subst hnil
    refine ⟨front, [], back, ?_, List.Subset.refl _, List.Subset.refl _, List.mem_singleton.mp h⟩
    have hnone : cutAt marker [] = none := if_neg hmarker
    rw [pieces_of_none hnone]
    exact List.mem_singleton_self _
  | succ fuel' ih =>
    unfold pieces at h
    rw [cutAt_padded hmarker hfront hback] at h
    cases hcut : cutAt marker l with
    | none =>
      rw [hcut] at h
      refine ⟨front, l, back, ?_, List.Subset.refl _, List.Subset.refl _, List.mem_singleton.mp h⟩
      rw [pieces_of_none hcut]
      exact List.mem_singleton_self _
    | some cut =>
      rw [hcut] at h
      cases fuel with
      | zero =>
        have hlength := behind_length hmarker hcut
        omega
      | succ fuel =>
        unfold pieces
        rw [hcut]
        dsimp only [Option.map_some] at h ⊢
        rcases List.mem_cons.mp h with hhead | htail
        · refine ⟨front, cut.1, [], List.mem_cons_self, List.Subset.refl _, List.nil_subset _, ?_⟩
          rw [hhead, List.append_nil]
        · have hlength := behind_length hmarker hcut
          have hinner : ∃ before inner behind, inner ∈ pieces marker fuel cut.2 ∧ before ⊆ [] ∧
              behind ⊆ back ∧ piece = before ++ inner ++ behind :=
            ih (fun _ hc => nomatch hc) (by omega)
              (by simp only [List.length_append, List.nil_append] at hfuel' ⊢; omega) htail
          obtain ⟨before, inner, behind, hmem, hbefore, hbehind, hpiece⟩ := hinner
          exact ⟨before, inner, behind, List.mem_cons_of_mem _ hmem,
            List.Subset.trans hbefore (List.nil_subset _), hbehind, hpiece⟩

/-! ## The first piece -/

theorem firstPiece_skip {text : List Char} (rest : List Char)
    (h : skips marker text = true) :
    firstPiece marker (text ++ rest) = text ++ firstPiece marker rest := by
  unfold firstPiece
  rw [cutAt_skip rest h]
  cases cutAt marker rest with
  | none => rfl
  | some cut => rfl

theorem firstPiece_self (hmarker : marker ≠ []) (rest : List Char) :
    firstPiece marker (marker ++ rest) = [] := by
  unfold firstPiece
  rw [cutAt_self hmarker]

theorem firstPiece_padded {front back : List Char} (hmarker : marker ≠ [])
    (hfront : Foreign marker front) (hback : Foreign marker back) :
    ∃ rest, rest ⊆ back ∧
      firstPiece marker (front ++ l ++ back) = front ++ firstPiece marker l ++ rest := by
  unfold firstPiece
  rw [cutAt_padded hmarker hfront hback]
  cases cutAt marker l with
  | none => exact ⟨back, List.Subset.refl _, rfl⟩
  | some cut => exact ⟨[], List.nil_subset _, (List.append_nil _).symm⟩

/-! ## Trimming -/

theorem dropWhile_around {p : Char → Bool} (l : List Char) :
    ∃ front, l = front ++ l.dropWhile p ∧ front.all p = true := by
  refine ⟨l.takeWhile p, (List.takeWhile_append_dropWhile).symm, ?_⟩
  exact List.all_takeWhile

theorem trimChars_around (l : List Char) :
    ∃ front back, l = front ++ trimChars l ++ back ∧ front.all isWhitespace = true ∧
      back.all isWhitespace = true := by
  obtain ⟨front, hfront, hspace⟩ := dropWhile_around l
  obtain ⟨back, hback, hspace'⟩ := dropWhile_around (trimStart l).reverse
  refine ⟨front, back.reverse, ?_, hspace, ?_⟩
  · have hrev := congrArg List.reverse hback
    rw [List.reverse_reverse, List.reverse_append] at hrev
    rw [List.append_assoc]
    unfold trimChars
    rw [trimStart, ← hrev]
    exact hfront
  · rw [List.all_reverse]
    exact hspace'

end Lib
