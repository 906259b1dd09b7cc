import Mathlib

/-!
# Yuance.Lib.Json

JSON values, their compact text and the reader of that text. Numbers are integers in integer form; a
lone surrogate escape is no character here and is not read.

* `parse_stringify`: the text of a value whose objects have distinct keys reads back as that value,
  white space behind it included.
* `normalize_normalize`: sorting the keys of every object is done after one pass.
-/

namespace Lib

inductive Json where
  | null
  | bool (b : Bool)
  | num (n : Int)
  | str (s : String)
  | arr (items : List Json)
  | obj (fields : List (String × Json))

namespace Json

def quote : Char := Char.ofNat 34
def backslash : Char := Char.ofNat 92

def hexDigit (n : Nat) : Char := Nat.digitChar n

/-- One character inside a string literal. -/
def escapeChar (c : Char) : List Char :=
  if c = quote then [backslash, quote]
  else if c = backslash then [backslash, backslash]
  else if c.toNat = 8 then [backslash, 'b']
  else if c.toNat = 9 then [backslash, 't']
  else if c.toNat = 10 then [backslash, 'n']
  else if c.toNat = 12 then [backslash, 'f']
  else if c.toNat = 13 then [backslash, 'r']
  else if c.toNat < 32 then
    [backslash, 'u', '0', '0', hexDigit (c.toNat / 16), hexDigit (c.toNat % 16)]
  else [c]

def stringText (s : String) : List Char := quote :: (s.toList.flatMap escapeChar ++ [quote])

def numberText (n : Int) : List Char :=
  match n with
  | .ofNat m => Nat.toDigits 10 m
  | .negSucc m => '-' :: Nat.toDigits 10 (m + 1)

mutual
def text : Json → List Char
  | .null => ['n', 'u', 'l', 'l']
  | .bool true => ['t', 'r', 'u', 'e']
  | .bool false => ['f', 'a', 'l', 's', 'e']
  | .num n => numberText n
  | .str s => stringText s
  | .arr [] => ['[', ']']
  | .arr (x :: xs) => '[' :: (text x ++ itemsText xs)
  | .obj [] => ['{', '}']
  | .obj ((k, v) :: fs) => '{' :: (stringText k ++ ':' :: (text v ++ fieldsText fs))

def itemsText : List Json → List Char
  | [] => [']']
  | x :: xs => ',' :: (text x ++ itemsText xs)

def fieldsText : List (String × Json) → List Char
  | [] => ['}']
  | (k, v) :: fs => ',' :: (stringText k ++ ':' :: (text v ++ fieldsText fs))
end

/-- `JSON.stringify(value)`. -/
def stringify (value : Json) : String := String.ofList (text value)

def isSpace (c : Char) : Bool :=
  c.toNat = 32 || c.toNat = 9 || c.toNat = 10 || c.toNat = 13

def skipSpace (cs : List Char) : List Char := cs.dropWhile isSpace

def hexValue? (c : Char) : Option Nat :=
  if c.isDigit then some (c.toNat - '0'.toNat)
  else if 'a' ≤ c ∧ c ≤ 'f' then some (c.toNat - 'a'.toNat + 10)
  else if 'A' ≤ c ∧ c ≤ 'F' then some (c.toNat - 'A'.toNat + 10)
  else none

def hex4? (a b c d : Char) : Option Nat := do
  let a ← hexValue? a
  let b ← hexValue? b
  let c ← hexValue? c
  let d ← hexValue? d
  pure (((a * 16 + b) * 16 + c) * 16 + d)

def simpleEscape? (c : Char) : Option Char :=
  if c = quote ∨ c = backslash ∨ c = '/' then some c
  else if c = 'b' then some (Char.ofNat 8)
  else if c = 't' then some (Char.ofNat 9)
  else if c = 'n' then some (Char.ofNat 10)
  else if c = 'f' then some (Char.ofNat 12)
  else if c = 'r' then some (Char.ofNat 13)
  else none

def isSurrogate (n : Nat) : Bool := 0xD800 ≤ n && n < 0xE000

/-- The character of a high surrogate `n` followed by the escape of a low one. -/
def surrogatePair? (n : Nat) (escaped : Bool) (low : Option Nat) : Option Char :=
  match low with
  | none => none
  | some m =>
    if escaped ∧ n < 0xDC00 ∧ 0xDC00 ≤ m ∧ m < 0xE000 then
      some (Char.ofNat (0x10000 + (n - 0xD800) * 0x400 + (m - 0xDC00)))
    else none

/-- The characters of a string literal and what stands behind its closing quote. -/
def parseChars : List Char → Option (List Char × List Char)
  | [] => none
  | c :: rest =>
    if c = quote then some ([], rest)
    else if c = backslash then
      match rest with
      | [] => none
      | 'u' :: h1 :: h2 :: h3 :: h4 :: rest =>
        match hex4? h1 h2 h3 h4 with
        | none => none
        | some n =>
          if isSurrogate n then
            match rest with
            | _ :: 'u' :: l1 :: l2 :: l3 :: l4 :: tail =>
              match surrogatePair? n (rest.head? == some backslash) (hex4? l1 l2 l3 l4) with
              | none => none
              | some x => (parseChars tail).map fun r => (x :: r.1, r.2)
            | _ => none
          else (parseChars rest).map fun r => (Char.ofNat n :: r.1, r.2)
      | e :: rest =>
        match simpleEscape? e with
        | none => none
        | some x => (parseChars rest).map fun r => (x :: r.1, r.2)
    else if c.toNat < 32 then none
    else (parseChars rest).map fun r => (c :: r.1, r.2)
termination_by structural x => x

/-- `0`, or digits that do not start with `0`. -/
def parseNat (cs : List Char) : Option (Nat × List Char) :=
  let digits := cs.takeWhile Char.isDigit
  if digits = [] ∨ (digits.head? = some '0' ∧ digits.length ≠ 1) then none
  else some (Nat.ofDigitChars 10 digits 0, cs.dropWhile Char.isDigit)

/-- A property is set once; setting it again keeps its place. -/
def setField (k : String) (v : Json) : List (String × Json) → List (String × Json)
  | [] => [(k, v)]
  | (k', v') :: fs => if k' = k then (k, v) :: fs else (k', v') :: setField k v fs

def ofFields (fields : List (String × Json)) : List (String × Json) :=
  fields.foldl (fun acc f => setField f.1 f.2 acc) []

mutual
def parseValue : Nat → List Char → Option (Json × List Char)
  | 0, _ => none
  | fuel + 1, cs =>
    match skipSpace cs with
    | [] => none
    | c :: rest =>
      if c = quote then (parseChars rest).map fun r => (.str (String.ofList r.1), r.2)
      else if c = '[' then
        match skipSpace rest with
        | ']' :: rest => some (.arr [], rest)
        | rest => (parseItems fuel rest).map fun r => (.arr r.1, r.2)
      else if c = '{' then
        match skipSpace rest with
        | '}' :: rest => some (.obj [], rest)
        | rest => (parseFields fuel rest).map fun r => (.obj (ofFields r.1), r.2)
      else if c = '-' then (parseNat rest).map fun r => (.num (-(r.1 : Int)), r.2)
      else if c.isDigit then (parseNat (c :: rest)).map fun r => (.num r.1, r.2)
      else
        match c :: rest with
        | 'n' :: 'u' :: 'l' :: 'l' :: rest => some (.null, rest)
        | 't' :: 'r' :: 'u' :: 'e' :: rest => some (.bool true, rest)
        | 'f' :: 'a' :: 'l' :: 's' :: 'e' :: rest => some (.bool false, rest)
        | _ => none

/-- The items behind `[` or a comma, and what stands behind `]`. -/
def parseItems : Nat → List Char → Option (List Json × List Char)
  | 0, _ => none
  | fuel + 1, cs =>
    match parseValue fuel cs with
    | none => none
    | some (x, rest) =>
      match skipSpace rest with
      | ']' :: rest => some ([x], rest)
      | ',' :: rest => (parseItems fuel rest).map fun r => (x :: r.1, r.2)
      | _ => none

/-- The fields behind an opening brace or a comma, and what stands behind the closing brace. -/
def parseFields : Nat → List Char → Option (List (String × Json) × List Char)
  | 0, _ => none
  | fuel + 1, cs =>
    match skipSpace cs with
    | [] => none
    | c :: rest =>
      if c = quote then
        match parseChars rest with
        | none => none
        | some (k, rest) =>
          match skipSpace rest with
          | ':' :: rest =>
            match parseValue fuel rest with
            | none => none
            | some (v, rest) =>
              match skipSpace rest with
              | '}' :: rest => some ([(String.ofList k, v)], rest)
              | ',' :: rest =>
                (parseFields fuel rest).map fun r => ((String.ofList k, v) :: r.1, r.2)
              | _ => none
          | _ => none
      else none
end

/-- `JSON.parse(source)`. -/
def parse (source : String) : Option Json :=
  match parseValue (source.toList.length + 1) source.toList with
  | none => none
  | some (value, rest) => if skipSpace rest = [] then some value else none

/-- The objects of the value have distinct keys, as JavaScript objects and Rust maps do. -/
inductive Distinct : Json → Prop where
  | null : Distinct .null
  | bool (b : Bool) : Distinct (.bool b)
  | num (n : Int) : Distinct (.num n)
  | str (s : String) : Distinct (.str s)
  | arr {items : List Json} (h : ∀ x ∈ items, Distinct x) : Distinct (.arr items)
  | obj {fields : List (String × Json)} (hk : (fields.map Prod.fst).Nodup)
      (h : ∀ f ∈ fields, Distinct f.2) : Distinct (.obj fields)

theorem setField_append {k : String} {v : Json} {fs : List (String × Json)}
    (h : k ∉ fs.map Prod.fst) : setField k v fs = fs ++ [(k, v)] := by
  induction fs with
  | nil => rfl
  | cons f fs ih =>
    obtain ⟨k', v'⟩ := f
    rw [List.map_cons, List.mem_cons, not_or] at h
    rw [setField, if_neg (Ne.symm h.1), ih h.2, List.cons_append]

theorem foldl_setField {fs : List (String × Json)} (acc : List (String × Json))
    (h : ((acc ++ fs).map Prod.fst).Nodup) :
    fs.foldl (fun acc f => setField f.1 f.2 acc) acc = acc ++ fs := by
  induction fs generalizing acc with
  | nil => simp
  | cons f fs ih =>
    have hnew : f.1 ∉ acc.map Prod.fst := by
      intro hf
      rw [List.map_append, List.map_cons] at h
      exact (List.disjoint_of_nodup_append h) hf (List.mem_cons_self ..)
    rw [List.foldl_cons, setField_append hnew, ih _ (by simpa using h)]
    simp

theorem ofFields_of_nodup {fs : List (String × Json)} (h : (fs.map Prod.fst).Nodup) :
    ofFields fs = fs := by
  rw [ofFields, foldl_setField [] (by simpa using h), List.nil_append]

theorem parseChars_control {n : Nat} (h : n < 32) (cs : List Char) :
    parseChars (escapeChar (Char.ofNat n) ++ cs) =
      (parseChars cs).map fun r => (Char.ofNat n :: r.1, r.2) := by
  rw [parseChars.eq_def]
  interval_cases n <;> rfl

theorem parseChars_escape (c : Char) (cs : List Char) :
    parseChars (escapeChar c ++ cs) = (parseChars cs).map fun r => (c :: r.1, r.2) := by
  by_cases hctl : c.toNat < 32
  · have := parseChars_control hctl cs
    rwa [Char.ofNat_toNat] at this
  · by_cases hq : c = quote
    · subst hq
      rw [parseChars.eq_def]
      rfl
    · by_cases hb : c = backslash
      · subst hb
        rw [parseChars.eq_def]
        rfl
      · have hesc : escapeChar c = [c] := by
          unfold escapeChar
          rw [if_neg hq, if_neg hb, if_neg (by omega), if_neg (by omega), if_neg (by omega),
            if_neg (by omega), if_neg (by omega), if_neg hctl]
        rw [hesc, List.singleton_append]
        conv_lhs => unfold parseChars
        rw [if_neg hq, if_neg hb, if_neg hctl]

theorem parseChars_flatMap (s cs : List Char) :
    parseChars (s.flatMap escapeChar ++ quote :: cs) = some (s, cs) := by
  induction s with
  | nil =>
    unfold parseChars
    simp
  | cons c s ih =>
    rw [List.flatMap_cons, List.append_assoc, parseChars_escape, ih]
    rfl

theorem isDigit_of_mem_toDigits {n : Nat} {c : Char} (h : c ∈ Nat.toDigits 10 n) :
    c.isDigit = true :=
  Nat.isDigit_of_mem_toDigits (by decide) (by decide) h

/-- A number does not start with `0`, but for `0` itself. -/
theorem head_toDigits (n : Nat) :
    (Nat.toDigits 10 n).head? ≠ some '0' ∨ (Nat.toDigits 10 n).length = 1 := by
  induction n using Nat.strong_induction_on with
  | _ n ih =>
    by_cases hn : n < 10
    · right
      rw [Nat.toDigits_of_lt_base hn, List.length_singleton]
    · left
      rw [Nat.toDigits_of_base_le (by decide) (by omega)]
      have hne : Nat.toDigits 10 (n / 10) ≠ [] := Nat.toDigits_ne_nil
      rw [List.head?_append_of_ne_nil _ hne]
      rcases ih (n / 10) (by omega) with h | h
      · exact h
      · have hlt : n / 10 < 10 := by
          have := (Nat.length_toDigits_le_iff (b := 10) (n := n / 10) (k := 1) (by decide)
            (by decide)).mp (by omega)
          omega
        rw [Nat.toDigits_of_lt_base hlt, List.head?_cons]
        have h0 : n / 10 ≠ 0 := by omega
        generalize n / 10 = m at hlt h0
        interval_cases m <;> simp_all

/-- What follows a number does not continue it. -/
def Ends (rest : List Char) : Prop := ∀ c ∈ rest.head?, c.isDigit = false

theorem takeWhile_digits {ds rest : List Char} (h : ∀ c ∈ ds, c.isDigit = true)
    (he : Ends rest) : (ds ++ rest).takeWhile Char.isDigit = ds := by
  rw [List.takeWhile_append_of_pos h]
  cases rest with
  | nil => simp
  | cons c rest =>
    have hc : c.isDigit = false := he c (by simp)
    rw [List.takeWhile_cons_of_neg (by simp [hc]), List.append_nil]

theorem dropWhile_digits {ds rest : List Char} (h : ∀ c ∈ ds, c.isDigit = true)
    (he : Ends rest) : (ds ++ rest).dropWhile Char.isDigit = rest := by
  rw [List.dropWhile_append_of_pos h]
  cases rest with
  | nil => rfl
  | cons c rest =>
    have hc : c.isDigit = false := he c (by simp)
    rw [List.dropWhile_cons_of_neg (by simp [hc])]

theorem parseNat_toDigits (n : Nat) {rest : List Char} (he : Ends rest) :
    parseNat (Nat.toDigits 10 n ++ rest) = some (n, rest) := by
  have hd : ∀ c ∈ Nat.toDigits 10 n, c.isDigit = true := fun c => isDigit_of_mem_toDigits
  have hne : Nat.toDigits 10 n ≠ [] := Nat.toDigits_ne_nil
  unfold parseNat
  simp only [takeWhile_digits hd he, dropWhile_digits hd he, Nat.ofDigitChars_ten_toDigits]
  rw [if_neg]
  rintro (h | ⟨h, hl⟩)
  · exact hne h
  · rcases head_toDigits n with h' | h'
    · exact h' h
    · exact hl h'

theorem skipSpace_cons {c : Char} (h : isSpace c = false) (cs : List Char) :
    skipSpace (c :: cs) = c :: cs :=
  List.dropWhile_cons_of_neg (by simp [h])

/-- A digit is no white space and starts neither a string, a list, an object nor a sign. -/
theorem digit_head {c : Char} (h : c.isDigit = true) :
    isSpace c = false ∧ c ≠ quote ∧ c ≠ '[' ∧ c ≠ '{' ∧ c ≠ '-' := by
  have hr : 48 ≤ c.toNat ∧ c.toNat ≤ 57 := by
    simp only [Char.isDigit, Bool.and_eq_true, decide_eq_true_eq] at h
    exact ⟨h.1, h.2⟩
  refine ⟨?_, ?_, ?_, ?_, ?_⟩
  · simp only [isSpace, Bool.or_eq_false_iff, decide_eq_false_iff_not]
    omega
  all_goals
    rintro rfl
    revert hr
    decide

theorem parseValue_nat (fuel n : Nat) {rest : List Char} (he : Ends rest) :
    parseValue (fuel + 1) (Nat.toDigits 10 n ++ rest) = some (.num n, rest) := by
  obtain ⟨c, ds, hds⟩ := List.exists_cons_of_ne_nil (Nat.toDigits_ne_nil (n := n) (b := 10))
  have hc : c.isDigit = true := isDigit_of_mem_toDigits (n := n) (by rw [hds]; simp)
  obtain ⟨hs, hq, hb, ho, hm⟩ := digit_head hc
  have hp := parseNat_toDigits n he
  rw [hds, List.cons_append] at hp
  rw [hds, List.cons_append, parseValue, skipSpace_cons hs]
  simp only [if_neg hq, if_neg hb, if_neg ho, if_neg hm, if_pos hc, hp]
  rfl

theorem parseValue_num (fuel : Nat) (n : Int) {rest : List Char} (he : Ends rest) :
    parseValue (fuel + 1) (numberText n ++ rest) = some (.num n, rest) := by
  cases n with
  | ofNat n => exact parseValue_nat fuel n he
  | negSucc n =>
    rw [numberText, List.cons_append, parseValue, skipSpace_cons (by decide)]
    simp only [if_neg (show ¬ '-' = quote by decide), if_neg (show ¬ '-' = '[' by decide),
      if_neg (show ¬ '-' = '{' by decide), if_true, parseNat_toDigits (n + 1) he]
    rfl

theorem parseValue_str (fuel : Nat) (s : String) (rest : List Char) :
    parseValue (fuel + 1) (stringText s ++ rest) = some (.str s, rest) := by
  rw [stringText, List.cons_append, parseValue, skipSpace_cons (by decide)]
  simp only [if_true, List.append_assoc, List.singleton_append, parseChars_flatMap]
  simp

theorem text_ne_nil (j : Json) : ∃ c cs, text j = c :: cs ∧ isSpace c = false ∧ c ≠ ']' := by
  match j with
  | .null => exact ⟨_, _, rfl, by decide, by decide⟩
  | .bool true => exact ⟨_, _, rfl, by decide, by decide⟩
  | .bool false => exact ⟨_, _, rfl, by decide, by decide⟩
  | .str s => exact ⟨_, _, rfl, by decide, by decide⟩
  | .arr [] => exact ⟨_, _, rfl, by decide, by decide⟩
  | .arr (x :: xs) => exact ⟨_, _, rfl, by decide, by decide⟩
  | .obj [] => exact ⟨_, _, rfl, by decide, by decide⟩
  | .obj ((k, v) :: fs) => exact ⟨_, _, rfl, by decide, by decide⟩
  | .num (.negSucc n) => exact ⟨_, _, rfl, by decide, by decide⟩
  | .num (.ofNat n) =>
    obtain ⟨c, ds, hds⟩ := List.exists_cons_of_ne_nil (Nat.toDigits_ne_nil (n := n) (b := 10))
    have hc : c.isDigit = true := isDigit_of_mem_toDigits (n := n) (by rw [hds]; simp)
    refine ⟨c, ds, hds, (digit_head hc).1, ?_⟩
    rintro rfl
    revert hc
    decide

theorem ends_itemsText (xs : List Json) (rest : List Char) : Ends (itemsText xs ++ rest) := by
  cases xs <;> simp [itemsText, Ends]

theorem ends_fieldsText (fs : List (String × Json)) (rest : List Char) :
    Ends (fieldsText fs ++ rest) := by
  match fs with
  | [] => simp [fieldsText, Ends]
  | (k, v) :: fs => simp [fieldsText, Ends]

mutual
theorem parseValue_text (j : Json) (hj : Distinct j) {fuel : Nat} {rest : List Char}
    (hf : (text j).length < fuel) (he : Ends rest) :
    parseValue fuel (text j ++ rest) = some (j, rest) := by
  obtain ⟨fuel, rfl⟩ : ∃ n, fuel = n + 1 := ⟨fuel - 1, by omega⟩
  match j with
  | .null => rfl
  | .bool true => rfl
  | .bool false => rfl
  | .num n => exact parseValue_num fuel n he
  | .str s => exact parseValue_str fuel s rest
  | .arr [] => rfl
  | .arr (x :: xs) =>
    have hd : ∀ y ∈ x :: xs, Distinct y := by
      cases hj with
      | arr h => exact h
    have hlen : (text x ++ itemsText xs).length < fuel := by
      rw [text, List.length_cons] at hf
      omega
    obtain ⟨c, cs, hc, hs, hb⟩ := text_ne_nil x
    have hi := parseItems_text x xs hd hlen rest
    rw [text, List.cons_append, parseValue, skipSpace_cons (by decide)]
    simp only [if_neg (show ¬ '[' = quote by decide), if_true]
    rw [hc] at hi ⊢
    simp only [List.cons_append] at hi ⊢
    rw [skipSpace_cons hs]
    split
    · rename_i heq
      cases heq
      exact absurd rfl hb
    · rw [hi]
      rfl
  | .obj [] => rfl
  | .obj ((k, v) :: fs) =>
    have hd : (((k, v) :: fs).map Prod.fst).Nodup ∧ ∀ f ∈ (k, v) :: fs, Distinct f.2 := by
      cases hj with
      | obj hk h => exact ⟨hk, h⟩
    have hlen : (stringText k ++ ':' :: (text v ++ fieldsText fs)).length < fuel := by
      rw [text, List.length_cons] at hf
      omega
    have hi := parseFields_text k v fs hd.2 hlen rest
    rw [text, List.cons_append, parseValue, skipSpace_cons (by decide)]
    simp only [if_neg (show ¬ '{' = quote by decide), if_neg (show ¬ '{' = '[' by decide), if_true]
    rw [stringText, List.cons_append, List.cons_append] at hi ⊢
    rw [skipSpace_cons (by decide)]
    split
    · rename_i heq
      exact absurd (List.cons.inj heq).1 (by decide)
    · rw [hi, Option.map_some, ofFields_of_nodup hd.1]
termination_by fuel

theorem parseItems_text (x : Json) (xs : List Json) (hd : ∀ y ∈ x :: xs, Distinct y)
    {fuel : Nat} (hf : (text x ++ itemsText xs).length < fuel) (rest : List Char) :
    parseItems fuel (text x ++ itemsText xs ++ rest) = some (x :: xs, rest) := by
  obtain ⟨fuel, rfl⟩ : ∃ n, fuel = n + 1 := ⟨fuel - 1, by omega⟩
  rw [List.length_append] at hf
  have hpos : 0 < (itemsText xs).length := by cases xs <;> simp [itemsText]
  have hx := @parseValue_text x (hd x (by simp)) fuel _ (by omega) (ends_itemsText xs rest)
  rw [parseItems, List.append_assoc, hx]
  match xs with
  | [] => rfl
  | y :: ys =>
    rw [itemsText, List.length_cons] at hf
    have hys := @parseItems_text y ys (fun z hz => hd z (by simp [List.mem_cons.mp hz])) fuel
      (by omega) rest
    simp only [itemsText, List.cons_append]
    rw [skipSpace_cons (by decide)]
    simp only [hys]
    rfl
termination_by fuel

theorem parseFields_text (k : String) (v : Json) (fs : List (String × Json))
    (hd : ∀ f ∈ (k, v) :: fs, Distinct f.2) {fuel : Nat}
    (hf : (stringText k ++ ':' :: (text v ++ fieldsText fs)).length < fuel) (rest : List Char) :
    parseFields fuel (stringText k ++ ':' :: (text v ++ fieldsText fs) ++ rest) =
      some ((k, v) :: fs, rest) := by
  obtain ⟨fuel, rfl⟩ : ∃ n, fuel = n + 1 := ⟨fuel - 1, by omega⟩
  rw [List.length_append, List.length_cons, List.length_append] at hf
  have hpos : 0 < (fieldsText fs).length := by
    match fs with
    | [] => simp [fieldsText]
    | (k, v) :: fs => simp [fieldsText]
  have hv := @parseValue_text v (hd (k, v) (by simp)) fuel _ (by omega) (ends_fieldsText fs rest)
  rw [parseFields, stringText, List.cons_append, List.cons_append, skipSpace_cons (by decide)]
  simp only [if_true, List.append_assoc, parseChars_flatMap, List.cons_append, List.nil_append]
  rw [skipSpace_cons (by decide)]
  simp only [hv, String.ofList_toList]
  match fs with
  | [] => rfl
  | (k', v') :: fs =>
    rw [fieldsText, List.length_cons] at hf
    have hfs := @parseFields_text k' v' fs (fun z hz => hd z (by simp [List.mem_cons.mp hz])) fuel
      (by omega) rest
    simp only [fieldsText, List.cons_append]
    rw [skipSpace_cons (by decide)]
    simp only [List.append_assoc, List.cons_append] at hfs ⊢
    simp only [hfs]
    rfl
termination_by fuel
end

/-- A string that stands in a literal as it is. -/
def Plain (s : String) : Prop := ∀ c ∈ s.toList, escapeChar c = [c]

instance (s : String) : Decidable (Plain s) := List.decidableBAll _ _

theorem stringText_plain {s : String} (h : Plain s) :
    stringText s = quote :: (s.toList ++ [quote]) := by
  have hsame : s.toList.flatMap escapeChar = s.toList := by
    rw [List.flatMap_congr h]
    exact List.flatMap_singleton' s.toList
  rw [stringText, hsame]

/-- Letters, digits and most of the punctuation need no escape. -/
theorem escapeChar_plain {c : Char} (hcontrol : 32 ≤ c.toNat) (hquote : c ≠ quote)
    (hbackslash : c ≠ backslash) : escapeChar c = [c] := by
  unfold escapeChar
  rw [if_neg hquote, if_neg hbackslash, if_neg (by omega), if_neg (by omega), if_neg (by omega),
    if_neg (by omega), if_neg (by omega), if_neg (by omega)]

/-- The text of a value, with white space behind it, reads back as the value. -/
theorem parse_stringify {j : Json} (hj : Distinct j) {space : String}
    (hs : ∀ c ∈ space.toList, isSpace c = true) : parse (stringify j ++ space) = some j := by
  have hends : Ends space.toList := by
    intro c hc
    have hsp := hs c (List.mem_of_mem_head? hc)
    by_contra hdig
    have := (digit_head (Bool.eq_true_of_not_eq_false hdig)).1
    rw [hsp] at this
    cases this
  have hall : skipSpace space.toList = [] := List.dropWhile_eq_nil_iff.mpr hs
  unfold parse
  rw [String.toList_append, stringify, String.toList_ofList,
    parseValue_text j hj (by rw [List.length_append]; omega) hends]
  simp only [hall, if_true]

/-- The code units that JavaScript compares strings by. -/
def utf16 (s : String) : List Nat :=
  s.toList.flatMap fun c =>
    if c.toNat < 0x10000 then [c.toNat]
    else [0xD800 + (c.toNat - 0x10000) / 0x400, 0xDC00 + (c.toNat - 0x10000) % 0x400]

def keyLe (a b : String × Json) : Bool := decide (utf16 a.1 ≤ utf16 b.1)

/-- `Object.keys(candidate).sort()`, each key with its value. -/
def sortFields (fields : List (String × Json)) : List (String × Json) := fields.mergeSort keyLe

mutual
/-- The value with the keys of every object sorted. -/
def normalize : Json → Json
  | .arr items => .arr (normalizeItems items)
  | .obj fields => .obj (sortFields (normalizeFields fields))
  | .null => .null
  | .bool b => .bool b
  | .num n => .num n
  | .str s => .str s

def normalizeItems : List Json → List Json
  | [] => []
  | x :: xs => normalize x :: normalizeItems xs

def normalizeFields : List (String × Json) → List (String × Json)
  | [] => []
  | (k, v) :: fs => (k, normalize v) :: normalizeFields fs
end

theorem normalizeItems_eq (xs : List Json) : normalizeItems xs = xs.map normalize := by
  induction xs with
  | nil => rfl
  | cons x xs ih => rw [normalizeItems, ih, List.map_cons]

theorem normalizeFields_eq (fs : List (String × Json)) :
    normalizeFields fs = fs.map fun f => (f.1, normalize f.2) := by
  induction fs with
  | nil => rfl
  | cons f fs ih => rw [normalizeFields, ih, List.map_cons]

theorem sortFields_sortFields (fs : List (String × Json)) :
    sortFields (sortFields fs) = sortFields fs := by
  apply List.mergeSort_of_pairwise
  apply List.pairwise_mergeSort
  · intro a b c hab hbc
    simp only [keyLe, decide_eq_true_eq] at hab hbc ⊢
    exact le_trans hab hbc
  · intro a b
    simp only [keyLe, Bool.or_eq_true, decide_eq_true_eq]
    exact le_total _ _

theorem map_fst_sortFields (fs : List (String × Json)) :
    ((sortFields fs).map Prod.fst).Perm (fs.map Prod.fst) :=
  (List.mergeSort_perm fs keyLe).map _

theorem mem_sortFields {fs : List (String × Json)} {f : String × Json} :
    f ∈ sortFields fs ↔ f ∈ fs :=
  (List.mergeSort_perm fs keyLe).mem_iff

/-- A property of all values that holds of the parts of a list or an object. -/
theorem rec_on {P : Json → Prop} (null : P .null) (bool : ∀ b, P (.bool b))
    (num : ∀ n, P (.num n)) (str : ∀ s, P (.str s))
    (arr : ∀ items, (∀ x ∈ items, P x) → P (.arr items))
    (obj : ∀ fields, (∀ f ∈ fields, P f.2) → P (.obj fields)) (j : Json) : P j :=
  @Json.rec P (fun items => ∀ x ∈ items, P x) (fun fields => ∀ f ∈ fields, P f.2) (fun f => P f.2)
    null bool num str arr obj (by simp)
    (fun x xs hx hxs => by
      intro y hy
      rcases List.mem_cons.mp hy with rfl | h
      · exact hx
      · exact hxs y h)
    (by simp)
    (fun f fs hf hfs => by
      intro y hy
      rcases List.mem_cons.mp hy with rfl | h
      · exact hf
      · exact hfs y h)
    (fun _ _ h => h) j

theorem normalize_normalize (j : Json) : normalize (normalize j) = normalize j := by
  induction j using rec_on with
  | null => rfl
  | bool b => rfl
  | num n => rfl
  | str s => rfl
  | arr items ih =>
    simp only [normalize, normalizeItems_eq, List.map_map]
    congr 1
    exact List.map_congr_left ih
  | obj fields ih =>
    have hid : ∀ f ∈ sortFields (fields.map fun f => (f.1, normalize f.2)),
        (f.1, normalize f.2) = f := by
      intro f hf
      obtain ⟨g, hg, rfl⟩ := List.mem_map.mp (mem_sortFields.mp hf)
      rw [ih g hg]
    simp only [normalize, normalizeFields_eq]
    rw [List.map_congr_left hid, List.map_id', sortFields_sortFields]

theorem distinct_normalize {j : Json} (h : Distinct j) : Distinct (normalize j) := by
  induction j using rec_on with
  | null => exact .null
  | bool b => exact .bool b
  | num n => exact .num n
  | str s => exact .str s
  | arr items ih =>
    cases h with
    | arr h =>
      rw [normalize, normalizeItems_eq]
      refine .arr fun x hx => ?_
      obtain ⟨y, hy, rfl⟩ := List.mem_map.mp hx
      exact ih y hy (h y hy)
  | obj fields ih =>
    cases h with
    | obj hk h =>
      rw [normalize, normalizeFields_eq]
      refine .obj ?_ fun f hf => ?_
      · rw [(map_fst_sortFields _).nodup_iff, List.map_map]
        exact hk
      · obtain ⟨g, hg, rfl⟩ := List.mem_map.mp (mem_sortFields.mp hf)
        exact ih g hg (h g hg)

mutual
/-- `String(value)`. -/
def coerce : Json → String
  | .null => "null"
  | .bool true => "true"
  | .bool false => "false"
  | .num n => String.ofList (numberText n)
  | .str s => s
  | .arr items => String.intercalate "," (coerceItems items)
  | .obj _ => "[object Object]"

/-- The items as `join` writes them. -/
def coerceItems : List Json → List String
  | [] => []
  | .null :: xs => "" :: coerceItems xs
  | x :: xs => coerce x :: coerceItems xs
end

/-- `value[key]`. -/
def get? (key : String) : Json → Option Json
  | .obj fields => fields.lookup key
  | _ => none

def isObject : Json → Bool
  | .obj _ => true
  | _ => false

/-- `Object.keys(value)`. -/
def keys : Json → List String
  | .obj fields => fields.map Prod.fst
  | _ => []

/-- `Object.keys(value).sort().join(",")`. -/
def joinedKeys : Json → String
  | .obj fields => String.intercalate "," ((sortFields fields).map Prod.fst)
  | _ => ""

/-- `JSON.stringify` of the value with the keys of every object sorted. -/
def canonicalJson (value : Json) : String := stringify (normalize value)

theorem parse_canonicalJson {j : Json} (h : Distinct j) :
    parse (canonicalJson j) = some (normalize j) := by
  have := @parse_stringify (normalize j) (distinct_normalize h) "" (by simp)
  rwa [String.append_empty] at this

theorem canonicalJson_normalize (j : Json) : canonicalJson (normalize j) = canonicalJson j := by
  rw [canonicalJson, normalize_normalize, canonicalJson]

end Json
end Lib
