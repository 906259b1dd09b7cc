import Yuance.Lib.Js
import Yuance.Web.AttachmentPreview

/-!
# Yuance.Web.PreviewRanges

The `Range` header of a preview: how `parse_single_byte_range` of `api/src/web/api/mod.rs` and
`parseRange` of `desktop/src/protocol/preview-protocol-handler.mjs` read it, and what
`attachment_preview_content_response` sends.

* `parseRange`: the desktop's reading.
* `Selects`: the bytes that two numbers, or one of them, ask for.
* `parseSingleByteRange_eq_some`, `parseRange_eq_some`: the two readings.
* `parsers_agree_iff`: when they are the same.
-/

namespace Yuance
namespace Web
namespace Preview

open Lib Platform Files

/-! ## The desktop -/

/-- A range that was read; without a header it is the whole file. -/
structure DesktopRange where
  isPartial : Bool
  start : Nat
  stop : Nat
  length : Nat
  deriving DecidableEq, Repr

/-- `/^bytes=(\d*)-(\d*)$/u`. -/
def matchRange (value : String) : Option (List Char × List Char) := do
  let range ← stripHead "bytes=" value
  match splitOnce '-' range.toList with
  | (_, none) => none
  | (first, some last) =>
    if first.all Char.isDigit && last.all Char.isDigit then some (first, last) else none

/-- `Number(digits)`. -/
def number (digits : List Char) : Nat := toNumber (digitsValue digits)

/-- The bounds from the two groups of the match, one of which may be empty. -/
def boundsOf (first last : List Char) (total : Nat) : Option (Nat × Nat) :=
  if first = [] then
    let suffix := number last
    if ¬ isSafeInteger suffix ∨ suffix < 1 then none else some (total - suffix, total - 1)
  else
    let start := number first
    let stop := if last = [] then total - 1 else number last
    if ¬ isSafeInteger start ∨ ¬ isSafeInteger stop ∨ start ≥ total ∨ stop < start then none
    else some (start, min stop (total - 1))

def parseRange (value : Option String) (total : Nat) : Option DesktopRange :=
  match value with
  | none => some ⟨false, 0, total - 1, total⟩
  | some value =>
    if total = 0 ∨ hasChar ',' value then none
    else do
      let (first, last) ← matchRange value
      if first = [] ∧ last = [] then none
      else do
        let (start, stop) ← boundsOf first last total
        some ⟨true, start, stop, stop - start + 1⟩

/-! ## Two readings -/

/-- The header is `bytes=first-last`. -/
def Split (value : String) (first last : List Char) : Prop :=
  value.toList = "bytes=".toList ++ (first ++ '-' :: last) ∧ '-' ∉ first

/-- The bytes from `start` to `stop` are what the numbers ask for, of `total` bytes. -/
def Selects (first last : List Char) (total start stop : Nat) : Prop :=
  0 < total ∧
    ((first = [] ∧ ∃ suffix, parseUsize last = some suffix ∧ 0 < suffix ∧
        start = total - suffix ∧ stop = total - 1) ∨
      (parseUsize first = some start ∧ start < total ∧
        (last = [] ∧ stop = total - 1 ∨
          ∃ n, parseUsize last = some n ∧ start ≤ n ∧ stop = min n (total - 1))))

section Readings

variable {value : String} {first last : List Char} {total start stop n : Nat}

theorem split_unique {first' last' : List Char} (h : Split value first last)
    (h' : Split value first' last') : first' = first ∧ last' = last := by
  have heq := List.append_cancel_left (h'.1.symm.trans h.1)
  have hsame := (splitOnce_append h'.2 last').symm.trans
    ((congrArg (splitOnce '-') heq).trans (splitOnce_append h.2 last))
  obtain ⟨rfl, hlast⟩ := Prod.mk.inj hsame
  exact ⟨rfl, Option.some.inj hlast⟩

theorem plus_not_digit : Char.isDigit '+' = false := by decide

theorem parseUsize_of_digits {text : List Char} (hne : text ≠ [])
    (hdigits : text.all Char.isDigit = true) :
    parseUsize text = some n ↔ digitsValue text < 2 ^ 64 ∧ n = digitsValue text := by
  have hplus : ∀ rest, text ≠ '+' :: rest := by
    rintro rest rfl
    rw [List.all_cons, plus_not_digit] at hdigits
    cases hdigits
  unfold parseUsize
  dsimp only
  split
  · rename_i rest
    exact absurd rfl (hplus rest)
  · rw [Option.ite_none_left_eq_some]
    simp [hne, hdigits, eq_comm]

/-- A number without a sign consists of digits. -/
theorem digits_of_parseUsize {text : List Char} (h : parseUsize text = some n)
    (hplus : '+' ∉ text) :
    text ≠ [] ∧ text.all Char.isDigit = true ∧ n = digitsValue text := by
  unfold parseUsize at h
  dsimp only at h
  split at h
  · simp at hplus
  · rw [Option.ite_none_left_eq_some] at h
    obtain ⟨hgood, hn⟩ := h
    simp only [not_or, not_not] at hgood
    exact ⟨hgood.1, hgood.2.1, (Option.some.inj hn).symm⟩

theorem isSafeInteger_toNumber {n : Nat} : isSafeInteger (toNumber n) ↔ n < 2 ^ 53 := by
  unfold isSafeInteger maxSafeInteger
  by_cases h : n < 2 ^ 53
  · rw [toNumber_of_lt h]
    omega
  · have := le_toNumber (Nat.le_of_not_lt h)
    omega

theorem mem_of_parseUsize {text : List Char} (h : parseUsize text = some n) {c : Char}
    (hc : c ∈ text) : c = '+' ∨ c.isDigit = true := by
  unfold parseUsize at h
  dsimp only at h
  rw [Option.ite_none_left_eq_some] at h
  obtain ⟨hgood, _⟩ := h
  simp only [not_or, not_not] at hgood
  have hall := List.all_eq_true.mp hgood.2.1
  split at hall
  · rcases List.mem_cons.mp hc with rfl | hrest
    · exact .inl rfl
    · exact .inr (hall c hrest)
  · exact .inr (hall c hc)

theorem comma_of_selects (h : Selects first last total start stop) :
    ',' ∉ first ++ '-' :: last := by
  have hnumber : ∀ {text : List Char} {n : Nat}, parseUsize text = some n → ',' ∉ text := by
    intro text n hn hmem
    rcases mem_of_parseUsize hn hmem with heq | hdigit
    · exact absurd heq (by decide)
    · exact absurd hdigit (by decide)
  intro hmem
  obtain ⟨_, ⟨rfl, n, hn, _⟩ | ⟨hfirst, _, ⟨rfl, _⟩ | ⟨n, hn, _⟩⟩⟩ := h
  · rcases List.mem_cons.mp hmem with heq | hlast
    · exact absurd heq (by decide)
    · exact hnumber hn hlast
  · rcases List.mem_append.mp hmem with hmem | hmem
    · exact hnumber hfirst hmem
    · exact absurd hmem (by decide)
  · rcases List.mem_append.mp hmem with hmem | hmem
    · exact hnumber hfirst hmem
    · rcases List.mem_cons.mp hmem with heq | hlast
      · exact absurd heq (by decide)
      · exact hnumber hn hlast

/-- What the server reads from the numbers. -/
theorem selects_iff (hpos : total ≠ 0) :
    (if first = [] then do
        let suffix ← parseUsize last
        if suffix = 0 then none else some (total - suffix, total - 1)
      else do
        let start ← parseUsize first
        if start ≥ total then none
        else do
          let stop ←
            (if last = [] then some (total - 1) else (parseUsize last).map (min · (total - 1)))
          if start ≤ stop then some (start, stop) else none) = some (start, stop) ↔
      Selects first last total start stop := by
  unfold Selects
  by_cases hfirst : first = []
  · have hnone : parseUsize first ≠ some start := by
      rw [hfirst]
      exact fun h => nomatch h
    rw [if_pos hfirst]
    simp only [Option.bind_eq_bind, Option.bind_eq_some_iff, Option.ite_none_left_eq_some,
      Option.some.injEq, Prod.mk.injEq, hfirst, true_and]
    constructor
    · rintro ⟨suffix, hsuffix, hne, rfl, rfl⟩
      exact ⟨by omega, .inl ⟨suffix, hsuffix, by omega, rfl, rfl⟩⟩
    · rintro ⟨_, ⟨suffix, hsuffix, hne, rfl, rfl⟩ | ⟨h, _⟩⟩
      · exact ⟨suffix, hsuffix, by omega, rfl, rfl⟩
      · exact absurd (hfirst ▸ h) hnone
  · rw [if_neg hfirst]
    simp only [Option.bind_eq_bind, Option.bind_eq_some_iff, Option.ite_none_left_eq_some,
      Option.ite_none_right_eq_some, Option.some.injEq, Prod.mk.injEq, hfirst, false_and, false_or]
    constructor
    · rintro ⟨a, ha, hlt, b, hb, hle, rfl, rfl⟩
      refine ⟨by omega, ha, by omega, ?_⟩
      by_cases hlast : last = []
      · rw [if_pos hlast] at hb
        exact .inl ⟨hlast, (Option.some.inj hb).symm⟩
      · rw [if_neg hlast] at hb
        obtain ⟨n, hn, rfl⟩ := Option.map_eq_some_iff.mp hb
        exact .inr ⟨n, hn, by omega, rfl⟩
    · rintro ⟨_, ha, hlt, hstop⟩
      refine ⟨start, ha, by omega, stop, ?_⟩
      rcases hstop with ⟨rfl, rfl⟩ | ⟨n, hn, hle, rfl⟩
      · exact ⟨if_pos rfl, by omega, rfl, rfl⟩
      · have hlast : last ≠ [] := by
          rintro rfl
          cases hn
        exact ⟨by rw [if_neg hlast, hn]; rfl, by omega, rfl, rfl⟩

theorem parseSingleByteRange_eq_some : parseSingleByteRange value total = some (start, stop) ↔
    ∃ first last, Split value first last ∧ Selects first last total start stop := by
  unfold parseSingleByteRange
  simp only [Option.bind_eq_bind, Option.bind_eq_some_iff, stripHead_eq_some]
  constructor
  · rintro ⟨range, hvalue, h⟩
    rw [Option.ite_none_left_eq_some] at h
    obtain ⟨hgood, h⟩ := h
    obtain ⟨hpos, _⟩ := not_or.mp hgood
    split at h
    · cases h
    · rename_i first last hsplit
      obtain ⟨hrange, hdash⟩ := splitOnce_eq_some.mp hsplit
      exact ⟨first, last, ⟨by rw [hvalue, hrange], hdash⟩, (selects_iff hpos).mp h⟩
  · rintro ⟨first, last, ⟨hvalue, hdash⟩, h⟩
    refine ⟨String.ofList (first ++ '-' :: last),
      hvalue.trans (congrArg ("bytes=".toList ++ ·) String.toList_ofList.symm), ?_⟩
    have hcomma : ¬ hasChar ',' (String.ofList (first ++ '-' :: last)) = true := by
      unfold hasChar
      rw [String.toList_ofList, List.contains_iff_mem]
      exact comma_of_selects h
    have hpos : total ≠ 0 := Nat.pos_iff_ne_zero.mp h.1
    rw [if_neg (not_or.mpr ⟨hpos, hcomma⟩), String.toList_ofList,
      splitOnce_eq_some.mpr ⟨rfl, hdash⟩]
    exact (selects_iff hpos).mpr h

/-- The numbers as the desktop wants them: without a sign, and exact. -/
def Plain (first last : List Char) : Prop :=
  '+' ∉ first ∧ '+' ∉ last ∧ digitsValue last < 2 ^ 53

theorem parseUsize_exact {text : List Char} (hne : text ≠ [])
    (hdigits : text.all Char.isDigit = true) (hlt : digitsValue text < 2 ^ 53) :
    parseUsize text = some n ↔ n = digitsValue text := by
  rw [parseUsize_of_digits hne hdigits]
  exact ⟨fun h => h.2, fun h => ⟨by omega, h⟩⟩

theorem suffix_iff (hpos : total ≠ 0) (hne : last ≠ []) (hlast : last.all Char.isDigit = true) :
    boundsOf [] last total = some (start, stop) ↔
      Selects [] last total start stop ∧ digitsValue last < 2 ^ 53 := by
  have hempty : parseUsize [] ≠ some start := fun h => nomatch h
  unfold boundsOf Selects
  rw [if_pos rfl]
  dsimp only
  by_cases hlt : digitsValue last < 2 ^ 53
  · have hexact : number last = digitsValue last := toNumber_of_lt hlt
    have hsafe : isSafeInteger (number last) := isSafeInteger_toNumber.mpr hlt
    rw [Option.ite_none_left_eq_some, hexact]
    rw [hexact] at hsafe
    simp only [hsafe, not_true, false_or, Option.some.injEq, Prod.mk.injEq,
      parseUsize_exact hne hlast hlt]
    constructor
    · rintro ⟨hbig, rfl, rfl⟩
      exact ⟨⟨by omega, .inl ⟨trivial, _, rfl, by omega, rfl, rfl⟩⟩, hlt⟩
    · rintro ⟨⟨_, ⟨_, n, rfl, hbig, rfl, rfl⟩ | ⟨h, _⟩⟩, _⟩
      · exact ⟨by omega, rfl, rfl⟩
      · exact absurd h hempty
  · have hunsafe : ¬ isSafeInteger (number last) := fun h => hlt (isSafeInteger_toNumber.mp h)
    rw [if_pos (.inl hunsafe)]
    exact iff_of_false (fun h => nomatch h) fun h => hlt h.2

theorem from_iff (hsafe : total < 2 ^ 53) (hne : first ≠ [])
    (hfirst : first.all Char.isDigit = true) (hlast : last.all Char.isDigit = true) :
    boundsOf first last total = some (start, stop) ↔
      Selects first last total start stop ∧ digitsValue last < 2 ^ 53 := by
  unfold boundsOf Selects
  rw [if_neg hne]
  dsimp only
  rw [Option.ite_none_left_eq_some]
  simp only [not_or, not_not, Option.some.injEq, Prod.mk.injEq, hne, false_and, false_or]
  constructor
  · rintro ⟨⟨hstart, hstop, hlt, hle⟩, rfl, rfl⟩
    have hsmall := isSafeInteger_toNumber.mp hstart
    have hexact : number first = digitsValue first := toNumber_of_lt hsmall
    rw [hexact] at hlt hle ⊢
    by_cases hl : last = []
    · subst hl
      exact ⟨⟨by omega, (parseUsize_exact hne hfirst hsmall).mpr rfl, by omega,
        .inl ⟨rfl, by rw [if_pos rfl]; omega⟩⟩, by decide⟩
    · rw [if_neg hl] at hstop hle ⊢
      have hsmall' := isSafeInteger_toNumber.mp hstop
      have hexact' : number last = digitsValue last := toNumber_of_lt hsmall'
      rw [hexact'] at hle ⊢
      exact ⟨⟨by omega, (parseUsize_exact hne hfirst hsmall).mpr rfl, by omega,
        .inr ⟨_, (parseUsize_exact hl hlast hsmall').mpr rfl, by omega, rfl⟩⟩, hsmall'⟩
  · rintro ⟨⟨hpos, hread, hlt, hstop⟩, hsmall'⟩
    have hvalue : start = digitsValue first :=
      (digits_of_parseUsize hread (by
        intro hmem
        have := List.all_eq_true.mp hfirst '+' hmem
        exact absurd this (by decide))).2.2
    have hsmall : digitsValue first < 2 ^ 53 := by omega
    have hexact : number first = digitsValue first := toNumber_of_lt hsmall
    have hstart : isSafeInteger (number first) := isSafeInteger_toNumber.mpr hsmall
    rcases hstop with ⟨rfl, rfl⟩ | ⟨n, hn, hle, rfl⟩
    · have htotal : isSafeInteger ((total - 1 : Nat) : Int) := by
        unfold isSafeInteger maxSafeInteger
        omega
      simp only [if_true]
      rw [hexact] at hstart ⊢
      exact ⟨⟨hstart, htotal, by omega, by omega⟩, hvalue.symm, by omega⟩
    · have hl : last ≠ [] := by
        rintro rfl
        cases hn
      have hexact' : number last = digitsValue last := toNumber_of_lt hsmall'
      have hsafe' : isSafeInteger (number last) := isSafeInteger_toNumber.mpr hsmall'
      have hvalue' : n = digitsValue last := (parseUsize_exact hl hlast hsmall').mp hn
      simp only [if_neg hl]
      rw [hexact] at hstart ⊢
      rw [hexact'] at hsafe' ⊢
      exact ⟨⟨hstart, hsafe', by omega, by omega⟩, hvalue.symm, by rw [hvalue']⟩

theorem bounds_iff (hpos : total ≠ 0) (hsafe : total < 2 ^ 53) (hne : ¬ (first = [] ∧ last = []))
    (hfirst : first.all Char.isDigit = true) (hlast : last.all Char.isDigit = true) :
    boundsOf first last total = some (start, stop) ↔
      Selects first last total start stop ∧ digitsValue last < 2 ^ 53 := by
  by_cases hempty : first = []
  · subst hempty
    exact suffix_iff hpos (fun h => hne ⟨rfl, h⟩) hlast
  · exact from_iff hsafe hempty hfirst hlast

/-- Numbers without a sign that ask for something are digits, and one of them is there. -/
theorem digits_of_selects (h : Selects first last total start stop) (hplus : '+' ∉ first)
    (hplus' : '+' ∉ last) :
    first.all Char.isDigit = true ∧ last.all Char.isDigit = true ∧ ¬ (first = [] ∧ last = []) := by
  obtain ⟨_, ⟨rfl, n, hn, _⟩ | ⟨hread, _, hstop⟩⟩ := h
  · obtain ⟨hne, hdigits, _⟩ := digits_of_parseUsize hn hplus'
    exact ⟨rfl, hdigits, fun hempty => hne hempty.2⟩
  · obtain ⟨hne, hdigits, _⟩ := digits_of_parseUsize hread hplus
    refine ⟨hdigits, ?_, fun hempty => hne hempty.1⟩
    rcases hstop with ⟨rfl, _⟩ | ⟨n, hn, _⟩
    · rfl
    · exact (digits_of_parseUsize hn hplus').2.1

theorem parseRange_eq_some (hsafe : total < 2 ^ 53) :
    (parseRange (some value) total).map (fun r => (r.start, r.stop)) = some (start, stop) ↔
      ∃ first last, Split value first last ∧ Selects first last total start stop ∧
        Plain first last := by
  have hnoplus : ∀ {text : List Char}, text.all Char.isDigit = true → '+' ∉ text := by
    intro text hall hmem
    exact absurd (List.all_eq_true.mp hall '+' hmem) (by decide)
  constructor
  · intro h
    obtain ⟨r, hr, hbounds⟩ := Option.map_eq_some_iff.mp h
    unfold parseRange at hr
    dsimp only at hr
    rw [Option.ite_none_left_eq_some] at hr
    obtain ⟨hgood, hr⟩ := hr
    obtain ⟨⟨first, last⟩, hmatch, hr⟩ := Option.bind_eq_some_iff.mp hr
    unfold matchRange at hmatch
    obtain ⟨range, hrange, hmatch⟩ := Option.bind_eq_some_iff.mp hmatch
    split at hmatch
    · cases hmatch
    · rename_i first' last' hsplit
      rw [Option.ite_none_right_eq_some] at hmatch
      obtain ⟨hdigits, hpair⟩ := hmatch
      obtain ⟨rfl, rfl⟩ := Prod.mk.inj (Option.some.inj hpair)
      obtain ⟨hfirst, hlast⟩ := Bool.and_eq_true_iff.mp hdigits
      obtain ⟨heq, hdash⟩ := splitOnce_eq_some.mp hsplit
      dsimp only at hr
      rw [Option.ite_none_left_eq_some] at hr
      obtain ⟨hne, hr⟩ := hr
      obtain ⟨⟨a, b⟩, hab, hr⟩ := Option.bind_eq_some_iff.mp hr
      obtain rfl := Option.some.inj hr
      obtain ⟨rfl, rfl⟩ := Prod.mk.inj hbounds
      obtain ⟨hselects, hlt⟩ := (bounds_iff (not_or.mp hgood).1 hsafe hne hfirst hlast).mp hab
      exact ⟨first', last', ⟨by rw [stripHead_eq_some.mp hrange, heq], hdash⟩, hselects,
        hnoplus hfirst, hnoplus hlast, hlt⟩
  · rintro ⟨first, last, ⟨hvalue, hdash⟩, hselects, hplus, hplus', hlt⟩
    obtain ⟨hfirst, hlast, hne⟩ := digits_of_selects hselects hplus hplus'
    have hcomma : ¬ hasChar ',' value = true := by
      unfold hasChar
      rw [List.contains_iff_mem, hvalue, List.mem_append]
      exact fun h => h.elim (by decide) (comma_of_selects hselects)
    have hmatch : matchRange value = some (first, last) := by
      have hhead : stripHead "bytes=" value = some (String.ofList (first ++ '-' :: last)) :=
        stripHead_eq_some.mpr
          (hvalue.trans (congrArg ("bytes=".toList ++ ·) String.toList_ofList.symm))
      unfold matchRange
      rw [hhead, Option.bind_eq_bind, Option.bind_some, String.toList_ofList,
        splitOnce_eq_some.mpr ⟨rfl, hdash⟩]
      exact if_pos (Bool.and_eq_true_iff.mpr ⟨hfirst, hlast⟩)
    have hpos : total ≠ 0 := Nat.pos_iff_ne_zero.mp hselects.1
    have hbounds := (bounds_iff hpos hsafe hne hfirst hlast).mpr ⟨hselects, hlt⟩
    unfold parseRange
    dsimp only
    rw [if_neg (not_or.mpr ⟨hpos, hcomma⟩), hmatch, Option.bind_eq_bind, Option.bind_some]
    dsimp only
    rw [if_neg hne, hbounds]
    rfl

/-- The two readings of a header are the same unless its numbers carry a sign or are too big. -/
theorem parsers_agree_iff (hsafe : total < 2 ^ 53) :
    parseSingleByteRange value total =
        (parseRange (some value) total).map (fun r => (r.start, r.stop)) ↔
      ∀ first last start stop, Split value first last → Selects first last total start stop →
        Plain first last := by
  constructor
  · intro hsame first last start stop hsplit hselects
    have hserver := parseSingleByteRange_eq_some.mpr ⟨first, last, hsplit, hselects⟩
    obtain ⟨first', last', hsplit', _, hplain⟩ :=
      (parseRange_eq_some hsafe).mp (hsame.symm.trans hserver)
    obtain ⟨rfl, rfl⟩ := split_unique hsplit hsplit'
    exact hplain
  · intro hplain
    apply Option.ext
    rintro ⟨start, stop⟩
    rw [parseSingleByteRange_eq_some, parseRange_eq_some hsafe]
    constructor
    · rintro ⟨first, last, hsplit, hselects⟩
      exact ⟨first, last, hsplit, hselects, hplain _ _ _ _ hsplit hselects⟩
    · rintro ⟨first, last, hsplit, hselects, _⟩
      exact ⟨first, last, hsplit, hselects⟩

end Readings

end Preview
end Web
end Yuance
