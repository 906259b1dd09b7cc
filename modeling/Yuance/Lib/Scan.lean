import Yuance.Lib.Except
import Yuance.Lib.Text

/-!
# Yuance.Lib.Scan

Search in a text, as `str::find` and the loops around it do it. A text is a list of characters.

* `cutAt`: the text before the first occurrence of a marker, and the text behind it.
* `parseInt64`: a number in decimal digits, as `str::parse` reads it.
-/

namespace Lib

/-- What stands before the first occurrence of `marker` and behind it. -/
def cutAt (marker : List Char) : List Char → Option (List Char × List Char)
  | [] => if marker = [] then some ([], []) else none
  | c :: cs =>
    if marker.isPrefixOf (c :: cs) then some ([], (c :: cs).drop marker.length)
    else (cutAt marker cs).map fun cut => (c :: cut.1, cut.2)

/-- `value.contains(marker)`. -/
def hasText (marker : String) (l : List Char) : Bool := (cutAt marker.toList l).isSome

/-- `value.ends_with(tail)`. -/
def hasTail (tail : String) (l : List Char) : Bool := tail.toList.isSuffixOf l

/-- `value.trim_start()`. -/
def trimStart (l : List Char) : List Char := l.dropWhile isWhitespace

/-- `value.trim()`. -/
def trimChars (l : List Char) : List Char := (trimStart (trimStart l).reverse).reverse

/-- The digits at the head of the text. -/
def leadingDigits (l : List Char) : List Char := l.takeWhile Char.isDigit

def digitsValue (l : List Char) : Nat := l.foldl (fun n c => 10 * n + (c.toNat - 48)) 0

/-- `digits.parse::<i64>()` of decimal digits. -/
def parseInt64 (l : List Char) : Option Int :=
  if digitsValue l < 2 ^ 63 then some (digitsValue l) else none

/-- `value.replace(pattern, by)`; `fuel` is at least the length of the text. -/
def replaceAll (pattern by_ : List Char) : Nat → List Char → List Char
  | 0, l => l
  | fuel + 1, l =>
    match cutAt pattern l with
    | none => l
    | some (before, behind) => before ++ by_ ++ replaceAll pattern by_ fuel behind

def replaceText (pattern by_ : String) (l : List Char) : List Char :=
  replaceAll pattern.toList by_.toList l.length l

/-- `value.split_whitespace()`. -/
def splitWhitespace : List Char → List (List Char)
  | [] => []
  | c :: cs =>
    if isWhitespace c then splitWhitespace cs
    else
      match cs, splitWhitespace cs with
      | [], words => [c] :: words
      | d :: _, words =>
        if isWhitespace d then [c] :: words
        else
          match words with
          | [] => [[c]]
          | w :: rest => (c :: w) :: rest

/-- `value.split(c)`. -/
def splitAll (c : Char) : List Char → List (List Char)
  | [] => [[]]
  | d :: ds =>
    if d = c then [] :: splitAll c ds
    else
      match splitAll c ds with
      | [] => [[d]]
      | piece :: rest => (d :: piece) :: rest

/-- `text LIKE pattern` of SQLite: `%` stands for any text, `_` for one character, and the case of
ASCII letters does not count. -/
def likePattern : List Char → List Char → Bool
  | [], text => text.isEmpty
  | p :: ps, text =>
    if p = '%' then text.tails.any (likePattern ps)
    else
      match text with
      | [] => false
      | c :: cs => (p = '_' || asciiLower p = asciiLower c) && likePattern ps cs

variable {marker l : List Char}

/-- A character is the separator, or stands in one of the pieces. -/
theorem mem_splitAll {c d : Char} {l : List Char} (h : d ∈ l) :
    d = c ∨ ∃ piece ∈ splitAll c l, d ∈ piece := by
  induction l with
  | nil => cases h
  | cons a l ih =>
    unfold splitAll
    by_cases hac : a = c
    · rw [if_pos hac]
      rcases List.mem_cons.mp h with rfl | hmem
      · exact .inl hac
      · rcases ih hmem with heq | ⟨piece, hpiece, hd⟩
        · exact .inl heq
        · exact .inr ⟨piece, List.mem_cons_of_mem _ hpiece, hd⟩
    · rw [if_neg hac]
      cases hsplit : splitAll c l with
      | nil =>
        rcases List.mem_cons.mp h with rfl | hmem
        · exact .inr ⟨[d], List.mem_cons_self, List.mem_cons_self⟩
        · rcases ih hmem with heq | ⟨piece, hpiece, _⟩
          · exact .inl heq
          · rw [hsplit] at hpiece
            cases hpiece
      | cons first rest =>
        rcases List.mem_cons.mp h with rfl | hmem
        · exact .inr ⟨d :: first, List.mem_cons_self, List.mem_cons_self⟩
        · rcases ih hmem with heq | ⟨piece, hpiece, hd⟩
          · exact .inl heq
          rw [hsplit] at hpiece
          rcases List.mem_cons.mp hpiece with rfl | hlater
          · exact .inr ⟨a :: piece, List.mem_cons_self, List.mem_cons_of_mem a hd⟩
          · exact .inr ⟨piece, List.mem_cons_of_mem _ hlater, hd⟩

theorem cutAt_eq_some {before behind : List Char} (h : cutAt marker l = some (before, behind)) :
    l = before ++ marker ++ behind := by
  induction l generalizing before behind with
  | nil =>
    unfold cutAt at h
    split at h
    · rename_i hm
      cases h
      rw [hm]
      rfl
    · cases h
  | cons c cs ih =>
    unfold cutAt at h
    split at h
    · rename_i hp
      cases h
      obtain ⟨rest, hrest⟩ := List.isPrefixOf_iff_prefix.mp hp
      rw [← hrest]
      simp
    · obtain ⟨cut, hcut, heq⟩ := Option.map_eq_some_iff.mp h
      cases heq
      rw [ih hcut]
      rfl

theorem length_behind {before behind : List Char} (h : cutAt marker l = some (before, behind)) :
    behind.length + marker.length ≤ l.length := by
  rw [cutAt_eq_some h]
  simp only [List.length_append]
  omega

end Lib
