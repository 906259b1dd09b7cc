import Yuance.Lib.Json

/-!
# Yuance.Lib.JsonText

What the reader of JSON makes of a text that was put together by hand.

* `weight`: the number of characters that are not quotes. No escape and no field yields more
  characters than the weight of the text it is read from.
* `parseChars_reads`: what stands in a literal, and when it stands there as it was escaped.
* `parse_bounds`: the texts in the fields of an object.
-/

namespace Lib
namespace Json

/-! ## Literals -/

def weight (cs : List Char) : Nat := cs.countP (· ≠ quote)

/-- `value.replace('"', "\\\"")`. -/
def escapeQuotes (cs : List Char) : List Char :=
  cs.flatMap fun c => if c = quote then [backslash, quote] else [c]

/-- A character that needs no escape but for being a quote. -/
def Printable (c : Char) : Prop := c ≠ backslash ∧ 32 ≤ c.toNat

/-- Before every quote there is a backslash. -/
def Escaped (cs : List Char) : Prop :=
  ∀ before behind, cs = before ++ quote :: behind → ∃ text, before = text ++ [backslash]

/-- `used` is the inside of a literal that reads as `s`. -/
structure Reads (used s : List Char) : Prop where
  escaped : Escaped used
  short : s.length ≤ weight used
  exact : s.length = weight used → used = escapeQuotes s ∧ ∀ c ∈ s, Printable c

section Literals

variable {cs used s rest : List Char} {c x : Char}

@[simp] theorem weight_nil : weight [] = 0 := rfl

@[simp] theorem weight_append (u v : List Char) : weight (u ++ v) = weight u + weight v :=
  List.countP_append ..

@[simp] theorem weight_quote (cs : List Char) : weight (quote :: cs) = weight cs :=
  List.countP_cons_of_neg (by simp)

theorem weight_cons (h : c ≠ quote) (cs : List Char) : weight (c :: cs) = weight cs + 1 :=
  List.countP_cons_of_pos (by simpa using h)

theorem weight_le_length (cs : List Char) : weight cs ≤ cs.length := List.countP_le_length ..

/-- A text with the weight of its length has no quotes. -/
theorem not_mem_of_weight (h : weight cs = cs.length) : quote ∉ cs := by
  intro hmem
  have hall := List.countP_eq_length.mp h quote hmem
  simp at hall

theorem weight_of_not_mem (h : quote ∉ cs) : weight cs = cs.length := by
  refine List.countP_eq_length.mpr fun c hc => ?_
  have hne : c ≠ quote := fun heq => h (heq ▸ hc)
  simpa using hne

@[simp] theorem weight_escapeQuotes (cs : List Char) : weight (escapeQuotes cs) = cs.length := by
  induction cs with
  | nil => rfl
  | cons c cs ih =>
    have hcons : escapeQuotes (c :: cs) =
        (if c = quote then [backslash, quote] else [c]) ++ escapeQuotes cs := rfl
    rw [hcons, weight_append, ih, List.length_cons]
    split
    · rw [Nat.add_comm]
      rfl
    · rename_i hne
      rw [weight_cons hne, weight_nil, Nat.zero_add, Nat.add_comm]

theorem escapeQuotes_of_not_mem (h : quote ∉ cs) : escapeQuotes cs = cs := by
  unfold escapeQuotes
  rw [List.flatMap_congr (g := fun c => [c])]
  · exact List.flatMap_singleton' cs
  · intro c hc
    refine if_neg ?_
    rintro rfl
    exact h hc

theorem Escaped.append {u v : List Char} (hu : Escaped u) (hv : Escaped v) : Escaped (u ++ v) := by
  intro before behind h
  rcases List.append_eq_append_iff.mp h with ⟨mid, rfl, hrest⟩ | ⟨mid, rfl, hrest⟩
  · obtain ⟨text, rfl⟩ := hv mid behind hrest
    exact ⟨u ++ text, (List.append_assoc ..).symm⟩
  · cases mid with
    | nil =>
      obtain ⟨text, htext⟩ := hv [] behind hrest.symm
      cases text with
      | nil => cases htext
      | cons => cases htext
    | cons d mid =>
      obtain ⟨rfl, hmid⟩ := List.cons.inj hrest
      obtain ⟨text, rfl⟩ := hu before mid rfl
      exact ⟨text, rfl⟩

theorem escaped_of_not_mem (h : quote ∉ cs) : Escaped cs := by
  rintro before behind rfl
  exact absurd (List.mem_append_right before List.mem_cons_self) h

theorem escaped_quote : Escaped [backslash, quote] := by
  intro before behind h
  match before with
  | [] => exact absurd (List.cons.inj h).1 (by decide)
  | [d] =>
    obtain ⟨rfl, _⟩ := List.cons.inj h
    exact ⟨[], rfl⟩
  | d :: e :: before =>
    have hlength := congrArg List.length h
    simp at hlength

/-! ### One unit of a literal -/

theorem Reads.nil : Reads [] [] where
  escaped := escaped_of_not_mem List.not_mem_nil
  short := Nat.le_refl _
  exact _ := ⟨rfl, fun _ hc => absurd hc List.not_mem_nil⟩

theorem Reads.plain (h : Reads used s) (hquote : c ≠ quote) (hprintable : Printable c) :
    Reads (c :: used) (c :: s) where
  escaped := Escaped.append (u := [c])
    (escaped_of_not_mem fun hmem => hquote (List.mem_singleton.mp hmem).symm) h.escaped
  short := by
    rw [weight_cons hquote, List.length_cons]
    exact Nat.succ_le_succ h.short
  exact hlength := by
    rw [weight_cons hquote, List.length_cons] at hlength
    obtain ⟨rfl, hall⟩ := h.exact (Nat.succ.inj hlength)
    refine ⟨?_, List.forall_mem_cons.mpr ⟨hprintable, hall⟩⟩
    show c :: escapeQuotes s = (if c = quote then [backslash, quote] else [c]) ++ escapeQuotes s
    rw [if_neg hquote]
    rfl

theorem Reads.quoted (h : Reads used s) : Reads (backslash :: quote :: used) (quote :: s) where
  escaped := Escaped.append (u := [backslash, quote]) escaped_quote h.escaped
  short := by
    rw [weight_cons (by decide), weight_quote, List.length_cons]
    exact Nat.succ_le_succ h.short
  exact hlength := by
    rw [weight_cons (by decide), weight_quote, List.length_cons] at hlength
    obtain ⟨rfl, hall⟩ := h.exact (Nat.succ.inj hlength)
    exact ⟨rfl, List.forall_mem_cons.mpr ⟨⟨by decide, by decide⟩, hall⟩⟩

/-- A longer escape stands for one character. -/
theorem Reads.unit {unit : List Char} (h : Reads used s) (hquote : quote ∉ unit)
    (hlong : 2 ≤ unit.length) :
    Reads (unit ++ used) (x :: s) where
  escaped := Escaped.append (escaped_of_not_mem hquote) h.escaped
  short := by
    have := h.short
    rw [weight_append, weight_of_not_mem hquote, List.length_cons]
    omega
  exact hlength := by
    have := h.short
    rw [weight_append, weight_of_not_mem hquote, List.length_cons] at hlength
    omega

theorem hexValue_ne_quote {n : Nat} (h : hexValue? c = some n) : c ≠ quote := by
  rintro rfl
  exact nomatch h

theorem hex4_ne_quote {h1 h2 h3 h4 : Char} {n : Nat} (h : hex4? h1 h2 h3 h4 = some n) :
    quote ∉ [h1, h2, h3, h4] := by
  unfold hex4? at h
  obtain ⟨n1, hn1, h⟩ := Option.bind_eq_some_iff.mp h
  obtain ⟨n2, hn2, h⟩ := Option.bind_eq_some_iff.mp h
  obtain ⟨n3, hn3, h⟩ := Option.bind_eq_some_iff.mp h
  obtain ⟨n4, hn4, _⟩ := Option.bind_eq_some_iff.mp h
  simp [(hexValue_ne_quote hn1).symm, (hexValue_ne_quote hn2).symm, (hexValue_ne_quote hn3).symm,
    (hexValue_ne_quote hn4).symm]

theorem surrogatePair_eq_some {n : Nat} {escaped : Bool} {low : Option Nat}
    (h : surrogatePair? n escaped low = some x) : escaped = true ∧ ∃ m, low = some m := by
  unfold surrogatePair? at h
  split at h
  · cases h
  · rename_i m
    rw [Option.ite_none_right_eq_some] at h
    exact ⟨h.1.1, m, rfl⟩

/-- One more unit in front of what is read. -/
theorem reads_of_unit {u tail : List Char}
    (htail : ∃ used, tail = used ++ quote :: rest ∧ Reads used s)
    (hunit : ∀ used, Reads used s → Reads (u ++ used) (x :: s)) :
    ∃ used, u ++ tail = used ++ quote :: rest ∧ Reads used (x :: s) := by
  obtain ⟨used, rfl, hreads⟩ := htail
  exact ⟨u ++ used, (List.append_assoc ..).symm, hunit used hreads⟩

/-- What is made of a part that was read leaves what is behind it. -/
theorem map_fst_eq_some {α β : Type} {read : Option (α × List Char)} {f : α → β} {b : β}
    (h : read.map (fun r => (f r.1, r.2)) = some (b, rest)) :
    ∃ a, read = some (a, rest) ∧ b = f a := by
  obtain ⟨⟨a, rest'⟩, hread, heq⟩ := Option.map_eq_some_iff.mp h
  obtain ⟨rfl, rfl⟩ := Prod.mk.inj heq
  exact ⟨a, hread, rfl⟩

/-- What is read of a literal is inside it, up to its closing quote. -/
theorem parseChars_reads (h : parseChars cs = some (s, rest)) :
    ∃ used, cs = used ++ quote :: rest ∧ Reads used s := by
  have hu : ∀ {hex : List Char}, quote ∉ hex → quote ∉ backslash :: 'u' :: hex := by
    intro hex hhex
    exact List.not_mem_cons_of_ne_of_not_mem (by decide)
      (List.not_mem_cons_of_ne_of_not_mem (by decide) hhex)
  fun_induction parseChars cs generalizing s rest with
  | case1 => cases h
  | case2 =>
    obtain ⟨rfl, rfl⟩ := Prod.mk.inj (Option.some.inj h)
    exact ⟨[], rfl, .nil⟩
  | case3 => cases h
  | case4 => cases h
  | case5 _ _ _ _ _ _ _ _ _ _ _ _ _ _ hnone =>
    rw [hnone] at h
    cases h
  | case6 h1 h2 h3 h4 n hhex _ head l1 l2 l3 l4 tail x _ hpair ih =>
    rw [hpair] at h
    obtain ⟨s', hread, rfl⟩ := map_fst_eq_some (f := (_ :: ·)) h
    obtain ⟨hhead, m, hlow⟩ := surrogatePair_eq_some hpair
    obtain rfl := Option.some.inj (eq_of_beq hhead)
    have hquote : quote ∉ [backslash, 'u', h1, h2, h3, h4] ++ [backslash, 'u', l1, l2, l3, l4] :=
      List.not_mem_append (hu (hex4_ne_quote hhex)) (hu (hex4_ne_quote hlow))
    exact reads_of_unit (ih hread) fun used hused =>
      hused.unit hquote (by simp only [List.length_append, List.length_cons]; omega)
  | case7 => cases h
  | case8 h1 h2 h3 h4 tail n hhex _ _ ih =>
    obtain ⟨s', hread, rfl⟩ := map_fst_eq_some (f := (_ :: ·)) h
    exact reads_of_unit (ih hread) fun used hused =>
      hused.unit (hu (hex4_ne_quote hhex)) (by simp only [List.length_cons]; omega)
  | case9 => cases h
  | case10 e tail _ x hescape _ ih =>
    obtain ⟨s', hread, rfl⟩ := map_fst_eq_some (f := (_ :: ·)) h
    by_cases hquote : e = quote
    · subst hquote
      obtain rfl : quote = x := Option.some.inj hescape
      exact reads_of_unit (u := [backslash, quote]) (ih hread) fun used hused => hused.quoted
    · have hunit : quote ∉ [backslash, e] := by
        simp only [List.mem_cons, List.not_mem_nil, or_false, not_or]
        exact ⟨by decide, Ne.symm hquote⟩
      exact reads_of_unit (ih hread) fun used hused => hused.unit hunit (Nat.le_refl 2)
  | case11 => cases h
  | case12 c tail hquote hbackslash hcontrol ih =>
    obtain ⟨s', hread, rfl⟩ := map_fst_eq_some (f := (_ :: ·)) h
    exact reads_of_unit (u := [c]) (ih hread) fun used hused =>
      hused.plain hquote ⟨hbackslash, Nat.le_of_not_lt hcontrol⟩

end Literals

/-! ## Values -/

section Values

variable {cs rest : List Char} {fuel : Nat}

theorem weight_dropWhile_le (p : Char → Bool) (cs : List Char) :
    weight (cs.dropWhile p) ≤ weight cs :=
  (List.dropWhile_sublist p).countP_le

theorem weight_skipSpace_le (cs : List Char) : weight (skipSpace cs) ≤ weight cs :=
  weight_dropWhile_le _ cs

theorem weight_of_skipSpace {c : Char} {tail : List Char} (h : skipSpace cs = c :: tail)
    (hquote : c ≠ quote) : weight tail + 1 ≤ weight cs := by
  have := weight_skipSpace_le cs
  rwa [h, weight_cons hquote] at this

theorem weight_parseChars {s : List Char} (h : parseChars cs = some (s, rest)) :
    s.length + weight rest ≤ weight cs := by
  obtain ⟨used, rfl, hreads⟩ := parseChars_reads h
  have := hreads.short
  rw [weight_append, weight_quote]
  omega

theorem weight_parseNat {n : Nat} (h : parseNat cs = some (n, rest)) : weight rest ≤ weight cs := by
  unfold parseNat at h
  dsimp only at h
  rw [Option.ite_none_left_eq_some] at h
  obtain ⟨_, rfl⟩ := Prod.mk.inj (Option.some.inj h.2)
  exact weight_dropWhile_le _ cs

/-- The texts of a value weigh no more than what they are read from. -/
def ValueBound (cs : List Char) (v : Json) (rest : List Char) : Prop :=
  weight rest ≤ weight cs ∧ ∀ s, v = .str s → s.toList.length + weight rest ≤ weight cs

def FieldsBound (cs : List Char) (fields : List (String × Json)) (rest : List Char) : Prop :=
  weight rest ≤ weight cs ∧ ∀ k s, (k, .str s) ∈ fields → s.toList.length + 2 ≤ weight cs

theorem weight_tail_le (c : Char) (tail : List Char) : weight tail ≤ weight (c :: tail) :=
  (List.sublist_cons_self c tail).countP_le

theorem weight_drop_le (k : Nat) (cs : List Char) : weight (cs.drop k) ≤ weight cs :=
  (List.drop_sublist k cs).countP_le

def isText : Json → Bool
  | .str _ => true
  | _ => false

/-- Only a literal is read as a text. -/
theorem valueBound_of_ne {v : Json} (hle : weight rest ≤ weight cs) (hne : v.isText = false) :
    ValueBound cs v rest := by
  refine ⟨hle, fun s hs => ?_⟩
  rw [hs] at hne
  cases hne

theorem parseValue_bound {v : Json}
    (ihi : ∀ cs items rest, parseItems fuel cs = some (items, rest) → weight rest ≤ weight cs)
    (ihf : ∀ cs fields rest, parseFields fuel cs = some (fields, rest) → FieldsBound cs fields rest)
    (h : parseValue (fuel + 1) cs = some (v, rest)) : ValueBound cs v rest := by
  have hspace := weight_skipSpace_le cs
  unfold parseValue at h
  split at h
  · cases h
  · rename_i c tail hstart
    rw [hstart] at hspace
    have htail := weight_tail_le c tail
    have hinner := weight_skipSpace_le tail
    split at h
    · obtain ⟨s, hread, rfl⟩ := map_fst_eq_some (f := fun s => Json.str (String.ofList s)) h
      have hweight := weight_parseChars hread
      refine ⟨by omega, fun t ht => ?_⟩
      obtain rfl := Json.str.inj ht
      rw [String.toList_ofList]
      omega
    · split at h
      · split at h
        · rename_i rest' hclose
          obtain ⟨rfl, rfl⟩ := Prod.mk.inj (Option.some.inj h)
          have := weight_of_skipSpace hclose (by decide)
          exact valueBound_of_ne (by omega) rfl
        · obtain ⟨items, hread, rfl⟩ := map_fst_eq_some (f := Json.arr) h
          have := ihi _ _ _ hread
          exact valueBound_of_ne (by omega) rfl
      · split at h
        · split at h
          · rename_i rest' hclose
            obtain ⟨rfl, rfl⟩ := Prod.mk.inj (Option.some.inj h)
            have := weight_of_skipSpace hclose (by decide)
            exact valueBound_of_ne (by omega) rfl
          · obtain ⟨fields, hread, rfl⟩ := map_fst_eq_some (f := fun fs => Json.obj (ofFields fs)) h
            have := (ihf _ _ _ hread).1
            exact valueBound_of_ne (by omega) rfl
        · split at h
          · obtain ⟨n, hread, rfl⟩ := map_fst_eq_some (f := fun n : Nat => Json.num (-n)) h
            have := weight_parseNat hread
            exact valueBound_of_ne (by omega) rfl
          · split at h
            · obtain ⟨n, hread, rfl⟩ := map_fst_eq_some (f := fun n : Nat => Json.num n) h
              have := weight_parseNat hread
              exact valueBound_of_ne (by omega) rfl
            · split at h
              · rename_i rest' heq
                obtain ⟨rfl, rfl⟩ := Prod.mk.inj (Option.some.inj h)
                have hdrop := weight_drop_le 4 (c :: tail)
                rw [heq] at hdrop
                exact valueBound_of_ne (Nat.le_trans hdrop (heq ▸ hspace)) rfl
              · rename_i rest' heq
                obtain ⟨rfl, rfl⟩ := Prod.mk.inj (Option.some.inj h)
                have hdrop := weight_drop_le 4 (c :: tail)
                rw [heq] at hdrop
                exact valueBound_of_ne (Nat.le_trans hdrop (heq ▸ hspace)) rfl
              · rename_i rest' heq
                obtain ⟨rfl, rfl⟩ := Prod.mk.inj (Option.some.inj h)
                have hdrop := weight_drop_le 5 (c :: tail)
                rw [heq] at hdrop
                exact valueBound_of_ne (Nat.le_trans hdrop (heq ▸ hspace)) rfl
              · cases h

theorem parse_bounds (fuel : Nat) :
    (∀ cs v rest, parseValue fuel cs = some (v, rest) → ValueBound cs v rest) ∧
      (∀ cs items rest, parseItems fuel cs = some (items, rest) → weight rest ≤ weight cs) ∧
      ∀ cs fields rest, parseFields fuel cs = some (fields, rest) → FieldsBound cs fields rest := by
  induction fuel with
  | zero =>
    refine ⟨?_, ?_, ?_⟩
    · intro cs v rest h
      cases h
    · intro cs items rest h
      cases h
    · intro cs fields rest h
      cases h
  | succ fuel ih =>
    obtain ⟨ihv, ihi, ihf⟩ := ih
    refine ⟨fun cs v rest => parseValue_bound ihi ihf, ?_, ?_⟩
    · intro cs items rest h
      unfold parseItems at h
      split at h
      · cases h
      · rename_i x tail hread
        have hvalue := (ihv _ _ _ hread).1
        split at h
        · rename_i hclose
          obtain ⟨rfl, rfl⟩ := Prod.mk.inj (Option.some.inj h)
          have := weight_of_skipSpace hclose (by decide)
          omega
        · rename_i hcomma
          obtain ⟨items, hitems, rfl⟩ := map_fst_eq_some (f := (_ :: ·)) h
          have := weight_of_skipSpace hcomma (by decide)
          have := ihi _ _ _ hitems
          omega
        · cases h
    · intro cs fields rest h
      unfold parseFields at h
      split at h
      · cases h
      · rename_i c tail hstart
        have hspace := weight_skipSpace_le cs
        rw [hstart] at hspace
        have htail := weight_tail_le c tail
        split at h
        · split at h
          · cases h
          · rename_i key behind hkey
            have hkey := weight_parseChars hkey
            split at h
            · rename_i colon hcolon
              have hcolon := weight_of_skipSpace hcolon (by decide)
              split at h
              · cases h
              · rename_i v after hread
                obtain ⟨hvalue, htext⟩ := ihv _ _ _ hread
                split at h
                · rename_i hclose
                  obtain ⟨rfl, rfl⟩ := Prod.mk.inj (Option.some.inj h)
                  have hclose := weight_of_skipSpace hclose (by decide)
                  refine ⟨by omega, fun k s hmem => ?_⟩
                  obtain ⟨_, hv⟩ := Prod.mk.inj (List.mem_singleton.mp hmem)
                  have := htext s hv.symm
                  omega
                · rename_i hcomma
                  obtain ⟨fields, hfields, rfl⟩ := map_fst_eq_some (f := (_ :: ·)) h
                  have hcomma := weight_of_skipSpace hcomma (by decide)
                  obtain ⟨hle, hall⟩ := ihf _ _ _ hfields
                  refine ⟨by omega, fun k s hmem => ?_⟩
                  rcases List.mem_cons.mp hmem with heq | hmem
                  · obtain ⟨_, hv⟩ := Prod.mk.inj heq
                    have := htext s hv.symm
                    omega
                  · have := hall k s hmem
                    omega
                · cases h
            · cases h
        · cases h

/-- The texts in the fields of an object are shorter than what they are read from. -/
theorem parseFields_bound {fields : List (String × Json)}
    (h : parseFields fuel cs = some (fields, rest)) : FieldsBound cs fields rest :=
  (parse_bounds fuel).2.2 cs fields rest h

end Values

/-! ## Objects that are written by hand -/

/-- The fields of an object that stand before another one. -/
def headText (fields : List (String × Json)) : List Char :=
  fields.flatMap fun f => stringText f.1 ++ ':' :: (text f.2 ++ [','])

/-- A field whose text stands between quotes as it is given. -/
def literalText (key : String) (inside behind : List Char) : List Char :=
  stringText key ++ ':' :: quote :: (inside ++ quote :: behind)

section Objects

variable {key : String} {head fields : List (String × Json)} {inside cs rest : List Char}
  {fuel : Nat}

theorem mem_of_mem_setField {k : String} {v : Json} {f : String × Json}
    (h : f ∈ setField k v fields) : f = (k, v) ∨ f ∈ fields := by
  induction fields with
  | nil => exact .inl (List.mem_singleton.mp h)
  | cons f' fields ih =>
    unfold setField at h
    split at h
    · rcases List.mem_cons.mp h with heq | hmem
      · exact .inl heq
      · exact .inr (List.mem_cons_of_mem _ hmem)
    · rcases List.mem_cons.mp h with heq | hmem
      · exact .inr (heq ▸ List.mem_cons_self)
      · exact (ih hmem).imp id (List.mem_cons_of_mem _)

/-- A field of an object is one of those that were read. -/
theorem mem_of_mem_ofFields {f : String × Json} (h : f ∈ ofFields fields) : f ∈ fields := by
  have hall : ∀ (fields acc : List (String × Json)),
      f ∈ fields.foldl (fun acc f => setField f.1 f.2 acc) acc → f ∈ fields ∨ f ∈ acc := by
    intro fields
    induction fields with
    | nil => exact fun acc h => .inr h
    | cons f' fields ih =>
      intro acc h
      rcases ih _ h with hmem | hmem
      · exact .inl (List.mem_cons_of_mem _ hmem)
      · rcases mem_of_mem_setField hmem with rfl | hmem
        · exact .inl List.mem_cons_self
        · exact .inr hmem
  exact (hall fields [] h).resolve_right List.not_mem_nil

/-- A field whose value is written as its text. -/
theorem parseFields_cons {v : Json} (hv : Distinct v) (hfuel : (text v).length < fuel) :
    parseFields (fuel + 1) (stringText key ++ ':' :: (text v ++ ',' :: cs)) =
      (parseFields fuel cs).map fun r => ((key, v) :: r.1, r.2) := by
  have hends : Ends (',' :: cs) := by
    intro c hc
    obtain rfl := Option.some.inj hc
    rfl
  have hvalue := parseValue_text v hv hfuel hends
  rw [parseFields, stringText, List.cons_append, skipSpace_cons (by decide)]
  simp only [if_true, List.append_assoc, parseChars_flatMap, List.cons_append, List.nil_append]
  rw [skipSpace_cons (by decide)]
  simp only [hvalue, String.ofList_toList]
  rw [skipSpace_cons (by decide)]
  rfl

theorem parseFields_head (hd : ∀ f ∈ head, Distinct f.2) (hfuel : (headText head).length ≤ fuel) :
    parseFields (fuel + 1) (headText head ++ cs) =
      (parseFields (fuel + 1 - head.length) cs).map fun r => (head ++ r.1, r.2) := by
  induction head generalizing fuel with
  | nil => exact (Option.map_id' ..).symm
  | cons f head ih =>
    have hcons : headText (f :: head) ++ cs =
        stringText f.1 ++ ':' :: (text f.2 ++ ',' :: (headText head ++ cs)) := by
      simp [headText]
    have hlength : (headText (f :: head)).length =
        (stringText f.1).length + (text f.2).length + 2 + (headText head).length := by
      simp [headText]
      omega
    obtain ⟨fuel, rfl⟩ := Nat.exists_eq_add_of_le' (show 1 ≤ fuel by omega)
    rw [hcons, parseFields_cons (hd f List.mem_cons_self) (by omega),
      ih (fun f' hf' => hd f' (List.mem_cons_of_mem _ hf')) (by omega), Option.map_map,
      List.length_cons, Nat.add_sub_add_right]
    rfl

/-- What is made of a text once its literal was read. -/
def afterLiteral (fuel : Nat) (key : String) (s rest : List Char) :
    Option (List (String × Json) × List Char) :=
  match skipSpace rest with
  | '}' :: rest => some ([(key, .str (String.ofList s))], rest)
  | ',' :: rest => (parseFields fuel rest).map fun r => ((key, .str (String.ofList s)) :: r.1, r.2)
  | _ => none

theorem parseFields_literal : parseFields (fuel + 2) (stringText key ++ ':' :: quote :: cs) =
    (parseChars cs).bind fun r => afterLiteral (fuel + 1) key r.1 r.2 := by
  rw [parseFields, stringText, List.cons_append, skipSpace_cons (by decide)]
  simp only [if_true, List.append_assoc, parseChars_flatMap, List.cons_append, List.nil_append]
  rw [skipSpace_cons (by decide)]
  simp only [String.ofList_toList]
  rw [parseValue, skipSpace_cons (by decide)]
  simp only [if_true]
  cases parseChars cs with
  | none => rfl
  | some r => rfl

theorem parse_object {body : List Char} (hquote : body.head? = some quote) :
    parse (String.ofList ('{' :: body)) = (parseFields (body.length + 1) body).bind fun r =>
      if skipSpace r.2 = [] then some (.obj (ofFields r.1)) else none := by
  obtain ⟨tail, rfl⟩ : ∃ tail, body = quote :: tail := by
    cases body with
    | nil => cases hquote
    | cons c tail => exact ⟨tail, congrArg (· :: tail) (Option.some.inj hquote)⟩
  have hvalue : ∀ fuel, parseValue (fuel + 1) ('{' :: quote :: tail) =
      (parseFields fuel (quote :: tail)).map fun r => (.obj (ofFields r.1), r.2) := by
    intro fuel
    rw [parseValue, skipSpace_cons (by decide)]
    simp only [if_neg (show ¬ '{' = quote by decide), if_neg (show ¬ '{' = '[' by decide), if_true]
    rw [skipSpace_cons (by decide)]
    split
    · rename_i heq
      exact absurd (List.cons.inj heq).1 (by decide)
    · rfl
  unfold parse
  rw [String.toList_ofList, List.length_cons, hvalue]
  cases parseFields ((quote :: tail).length + 1) (quote :: tail) with
  | none => rfl
  | some r => rfl

theorem literalText_head? (behind : List Char) :
    (headText head ++ literalText key inside behind).head? = some quote := by
  cases head with
  | nil => rfl
  | cons f head => rfl

/-- Where a literal ends in a text that is put between quotes. -/
theorem ends_of_append {used behind : List Char}
    (h : used ++ quote :: rest = inside ++ quote :: behind) :
    (used = inside ∧ rest = behind) ∨
      (∃ mid, inside = used ++ quote :: mid ∧ rest = mid ++ quote :: behind) ∨
      ∃ mid, used = inside ++ quote :: mid ∧ behind = mid ++ quote :: rest := by
  rcases List.append_eq_append_iff.mp h with ⟨mid, rfl, hrest⟩ | ⟨mid, rfl, hrest⟩
  · cases mid with
    | nil =>
      obtain ⟨_, rfl⟩ := List.cons.inj hrest
      exact .inl ⟨(List.append_nil _).symm, rfl⟩
    | cons c mid =>
      obtain ⟨rfl, rfl⟩ := List.cons.inj hrest
      exact .inr (.inl ⟨mid, rfl, rfl⟩)
  · cases mid with
    | nil =>
      obtain ⟨_, rfl⟩ := List.cons.inj hrest
      exact .inl ⟨List.append_nil _, rfl⟩
    | cons c mid =>
      obtain ⟨rfl, rfl⟩ := List.cons.inj hrest
      exact .inr (.inr ⟨mid, rfl, rfl⟩)

theorem length_le_headText (head : List (String × Json)) :
    head.length ≤ (headText head).length := by
  unfold headText
  rw [List.length_flatMap]
  refine le_trans (by simp) (List.length_le_sum_of_one_le _ ?_)
  intro n hn
  obtain ⟨f, _, rfl⟩ := List.mem_map.mp hn
  simp
  omega

/-- A last field holds a text only if that text was escaped as it is read. -/
theorem reads_last {s : String} (hweight : weight inside ≤ s.toList.length)
    (hlength : inside.length ≤ (escapeQuotes s.toList).length)
    (h : parseFields (fuel + 2) (literalText key inside ['}']) = some (fields, rest))
    (hmem : (key, .str s) ∈ fields) :
    inside = escapeQuotes s.toList ∧ ∀ c ∈ s.toList, Printable c := by
  unfold literalText at h
  rw [parseFields_literal] at h
  obtain ⟨⟨r, after⟩, hread, hafter⟩ := Option.bind_eq_some_iff.mp h
  obtain ⟨used, hused, hreads⟩ := parseChars_reads hread
  dsimp only at hafter
  rcases ends_of_append hused.symm with ⟨rfl, rfl⟩ | ⟨mid, rfl, rfl⟩ | ⟨mid, _, hbehind⟩
  · obtain ⟨rfl, _⟩ := Prod.mk.inj (Option.some.inj hafter)
    obtain ⟨_, hs⟩ := Prod.mk.inj (List.mem_singleton.mp hmem)
    obtain rfl := Json.str.inj hs
    rw [String.toList_ofList] at hweight ⊢
    exact hreads.exact (Nat.le_antisymm hreads.short hweight)
  · exfalso
    rw [weight_append, weight_quote] at hweight
    have hfirst : (key, Json.str s) ≠ (key, .str (String.ofList r)) := by
      intro heq
      obtain rfl := Json.str.inj (Prod.mk.inj heq).2
      rw [String.toList_ofList] at hweight hlength
      have hshort := hreads.short
      obtain ⟨rfl, _⟩ := hreads.exact (by omega)
      rw [List.length_append, List.length_cons] at hlength
      omega
    unfold afterLiteral at hafter
    split at hafter
    · obtain ⟨rfl, _⟩ := Prod.mk.inj (Option.some.inj hafter)
      exact hfirst (List.mem_singleton.mp hmem)
    · rename_i tail hcomma
      obtain ⟨others, hothers, rfl⟩ := map_fst_eq_some (f := (_ :: ·)) hafter
      have hlong := (parseFields_bound hothers).2 key s
        ((List.mem_cons.mp hmem).resolve_left hfirst)
      have htail := weight_of_skipSpace hcomma (by decide)
      have hend : weight (mid ++ [quote, '}']) = weight mid + 1 := by
        rw [weight_append]
        rfl
      omega
    · cases hafter
  · have hquote : quote ∈ ['}'] := hbehind ▸ List.mem_append_right mid List.mem_cons_self
    exact absurd hquote (by decide)

/-- A field without quotes in its text ends where it was put between quotes, if the name of the next
field does not go on as an object does. -/
theorem reads_before {c : Char} {tail : List Char} (hinside : quote ∉ inside)
    (hspace : isSpace c = false) (hclose : c ≠ '}') (hcomma : c ≠ ',')
    (h : parseFields (fuel + 2) (literalText key inside (',' :: quote :: c :: tail)) =
      some (fields, rest)) :
    ∃ r others, Reads inside r ∧ fields = (key, .str (String.ofList r)) :: others ∧
      parseFields (fuel + 1) (quote :: c :: tail) = some (others, rest) := by
  unfold literalText at h
  rw [parseFields_literal] at h
  obtain ⟨⟨r, after⟩, hread, hafter⟩ := Option.bind_eq_some_iff.mp h
  obtain ⟨used, hused, hreads⟩ := parseChars_reads hread
  dsimp only at hafter
  rcases ends_of_append hused.symm with ⟨rfl, rfl⟩ | ⟨mid, rfl, _⟩ | ⟨mid, rfl, hbehind⟩
  · obtain ⟨others, hothers, rfl⟩ := map_fst_eq_some (f := (_ :: ·)) hafter
    exact ⟨r, others, hreads, rfl, hothers⟩
  · exact absurd (List.mem_append_right used List.mem_cons_self) hinside
  · exfalso
    match mid with
    | [] => exact absurd (List.cons.inj hbehind).1 (by decide)
    | [d] =>
      obtain ⟨rfl, hrest⟩ := List.cons.inj hbehind
      obtain rfl := (List.cons.inj hrest).2
      unfold afterLiteral at hafter
      rw [skipSpace_cons hspace] at hafter
      split at hafter
      · rename_i heq
        exact hclose (List.cons.inj heq).1
      · rename_i heq
        exact hcomma (List.cons.inj heq).1
      · cases hafter
    | d :: e :: mid =>
      obtain ⟨rfl, hrest⟩ := List.cons.inj hbehind
      obtain ⟨rfl, _⟩ := List.cons.inj hrest
      obtain ⟨text, htext⟩ := hreads.escaped (inside ++ [quote, ',']) mid (by simp)
      have hlast := congrArg List.getLast? htext
      simp [quote, backslash] at hlast

/-- A last field without quotes in its text is the only one. -/
theorem reads_alone (hinside : quote ∉ inside)
    (h : parseFields (fuel + 2) (literalText key inside ['}']) = some (fields, rest)) :
    ∃ r, Reads inside r ∧ fields = [(key, .str (String.ofList r))] := by
  unfold literalText at h
  rw [parseFields_literal] at h
  obtain ⟨⟨r, after⟩, hread, hafter⟩ := Option.bind_eq_some_iff.mp h
  obtain ⟨used, hused, hreads⟩ := parseChars_reads hread
  dsimp only at hafter
  rcases ends_of_append hused.symm with ⟨rfl, rfl⟩ | ⟨mid, rfl, _⟩ | ⟨mid, _, hbehind⟩
  · obtain ⟨rfl, _⟩ := Prod.mk.inj (Option.some.inj hafter)
    exact ⟨r, hreads, rfl⟩
  · exact absurd (List.mem_append_right used List.mem_cons_self) hinside
  · have hmem : quote ∈ ['}'] := hbehind ▸ List.mem_append_right mid List.mem_cons_self
    exact absurd hmem (by decide)

/-- An object with two fields that are put between quotes, and one field between them. -/
theorem reads_both {key' : String} {f : String × Json} {inside' : List Char} {object : Json}
    (hd : ∀ f ∈ head, Distinct f.2) (hf : Distinct f.2) {c : Char} {tail : List Char}
    (hstart : headText [f] = quote :: c :: tail) (hspace : isSpace c = false) (hclose : c ≠ '}')
    (hcomma : c ≠ ',') (hinside : quote ∉ inside) (hinside' : quote ∉ inside')
    (h : parse (String.ofList ('{' :: (headText head ++ literalText key inside
      (',' :: (headText [f] ++ literalText key' inside' ['}']))))) = some object) :
    ∃ r r', Reads inside r ∧ Reads inside' r' ∧ object = .obj (ofFields
      (head ++ [(key, .str (String.ofList r)), f, (key', .str (String.ofList r'))])) := by
  rw [parse_object (literalText_head? _)] at h
  obtain ⟨⟨fields, rest⟩, hfields, h⟩ := Option.bind_eq_some_iff.mp h
  rw [Option.ite_none_right_eq_some] at h
  obtain rfl := Option.some.inj h.2
  rw [parseFields_head hd (by simp)] at hfields
  obtain ⟨others, hothers, rfl⟩ := map_fst_eq_some (f := (head ++ ·)) hfields
  have hcount := length_le_headText head
  obtain ⟨fuel, hfuel, hlong⟩ : ∃ fuel, (headText head ++ literalText key inside
      (',' :: (headText [f] ++ literalText key' inside' ['}']))).length + 1 - head.length
        = fuel + 2 ∧ (headText [f]).length + 3 ≤ fuel := by
    refine ⟨_, (Nat.sub_add_cancel ?_).symm, ?_⟩
    · simp only [List.length_append, literalText, List.length_cons]
      omega
    · simp only [List.length_append, literalText, List.length_cons]
      omega
  rw [hfuel, hstart, List.cons_append, List.cons_append] at hothers
  obtain ⟨r, behind, hr, rfl, hbehind⟩ := reads_before hinside hspace hclose hcomma hothers
  rw [← List.cons_append, ← List.cons_append, ← hstart, parseFields_head (by
    intro g hg
    obtain rfl := List.mem_singleton.mp hg
    exact hf) (by omega)] at hbehind
  obtain ⟨last, hlast, rfl⟩ := map_fst_eq_some (f := ([f] ++ ·)) hbehind
  obtain ⟨fuel', hfuel'⟩ : ∃ fuel', fuel + 1 - [f].length = fuel' + 2 :=
    ⟨fuel - 2, by rw [List.length_singleton]; omega⟩
  rw [hfuel'] at hlast
  obtain ⟨r', hr', rfl⟩ := reads_alone hinside' hlast
  exact ⟨r, r', hr, hr', rfl⟩

theorem flatMap_escapeChar {s : List Char} (h : ∀ c ∈ s, Printable c) :
    s.flatMap escapeChar = escapeQuotes s := by
  refine List.flatMap_congr fun c hc => ?_
  by_cases hquote : c = quote
  · subst hquote
    rfl
  · obtain ⟨hbackslash, hcontrol⟩ := h c hc
    rw [if_neg hquote, escapeChar_plain hcontrol hquote hbackslash]

theorem fieldsText_eq {fields : List (String × Json)} (hne : fields ≠ []) (body : List Char)
    (h : text (.obj fields) = '{' :: body) : fieldsText fields = ',' :: body := by
  match fields with
  | [] => exact absurd rfl hne
  | (k, v) :: fields =>
    rw [text] at h
    rw [fieldsText, (List.cons.inj h).2]

/-- The text of an object is that of its fields. -/
theorem text_object (head : List (String × Json)) (f : String × Json) :
    text (.obj (head ++ [f])) =
      '{' :: (headText head ++ (stringText f.1 ++ ':' :: (text f.2 ++ ['}']))) := by
  induction head with
  | nil => rfl
  | cons g head ih =>
    rw [List.cons_append, text, fieldsText_eq (by simp) _ ih]
    simp [headText]

/-- An object whose last field is put between quotes reads back if and only if the text in it stands
there as it is escaped, and none of its characters needs another escape. -/
theorem parse_literal_iff {s : String} (hkeys : (head.map Prod.fst ++ [key]).Nodup)
    (hd : ∀ f ∈ head, Distinct f.2) (hweight : weight inside ≤ s.toList.length)
    (hlength : inside.length ≤ (escapeQuotes s.toList).length) :
    parse (String.ofList ('{' :: (headText head ++ literalText key inside ['}']))) =
        some (.obj (head ++ [(key, .str s)])) ↔
      inside = escapeQuotes s.toList ∧ ∀ c ∈ s.toList, Printable c := by
  have hnew : key ∉ head.map Prod.fst := by
    intro hmem
    exact (List.nodup_append.mp hkeys).2.2 key hmem key (List.mem_singleton.mpr rfl) rfl
  constructor
  · intro h
    rw [parse_object (literalText_head? _)] at h
    obtain ⟨⟨fields, rest⟩, hfields, h⟩ := Option.bind_eq_some_iff.mp h
    rw [Option.ite_none_right_eq_some] at h
    have hobject := Json.obj.inj (Option.some.inj h.2)
    have hmem : (key, Json.str s) ∈ fields :=
      mem_of_mem_ofFields (hobject ▸ List.mem_append_right head (List.mem_singleton.mpr rfl))
    rw [parseFields_head hd (by simp)] at hfields
    obtain ⟨others, hothers, rfl⟩ := map_fst_eq_some (f := (head ++ ·)) hfields
    have hlast : (key, Json.str s) ∈ others :=
      (List.mem_append.mp hmem).resolve_left fun hin =>
        hnew (List.mem_map.mpr ⟨_, hin, rfl⟩)
    have hcount := length_le_headText head
    obtain ⟨fuel, hfuel⟩ : ∃ fuel, (headText head ++ literalText key inside ['}']).length + 1
        - head.length = fuel + 2 := by
      refine ⟨_, (Nat.sub_add_cancel ?_).symm⟩
      simp [literalText]
      omega
    rw [hfuel] at hothers
    exact reads_last hweight hlength hothers hlast
  · rintro ⟨rfl, hall⟩
    have htext : '{' :: (headText head ++ literalText key (escapeQuotes s.toList) ['}']) =
        text (.obj (head ++ [(key, .str s)])) := by
      have hs : stringText s = quote :: (escapeQuotes s.toList ++ [quote]) := by
        rw [stringText, flatMap_escapeChar hall]
      rw [text_object, text, hs]
      simp [literalText]
    have hdistinct : Distinct (.obj (head ++ [(key, .str s)])) := by
      refine .obj (by rw [List.map_append]; exact hkeys) fun f hf => ?_
      rcases List.mem_append.mp hf with hin | hin
      · exact hd f hin
      · rw [List.mem_singleton.mp hin]
        exact .str s
    have hparse := @parse_stringify _ hdistinct "" (fun c hc => nomatch hc)
    rw [String.append_empty, stringify, ← htext] at hparse
    exact hparse

end Objects

end Json
end Lib
