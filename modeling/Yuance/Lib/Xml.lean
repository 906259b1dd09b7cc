import Mathlib.Data.List.Basic

/-!
# Yuance.Lib.Xml

Well-formed XML documents without a document type, read character by character. A control state says
what the reader is in the middle of; the children of the root are collected beside it.

* `step`, `run`: the control state, with the open elements.
* `isWellFormed`, `children`: one root, and the texts of its children with a local name.
* `collect_same`, `collect_apart`: what is collected behind a point where two readings meet.
-/

namespace Lib
namespace Xml

/-! ## Characters -/

def inRanges (ranges : List (Nat × Nat)) (n : Nat) : Bool :=
  ranges.any fun range => range.1 ≤ n && n ≤ range.2

def charRanges : List (Nat × Nat) :=
  [(0x9, 0xA), (0xD, 0xD), (0x20, 0xD7FF), (0xE000, 0xFFFD), (0x10000, 0x10FFFF)]

def isChar (c : Char) : Bool := inRanges charRanges c.toNat

def isSpace (c : Char) : Bool := c = ' ' || c = '\t' || c = '\r' || c = '\n'

def isNameStart (c : Char) : Bool :=
  inRanges [(0x3A, 0x3A), (0x41, 0x5A), (0x5F, 0x5F), (0x61, 0x7A), (0xC0, 0xD6), (0xD8, 0xF6),
    (0xF8, 0x2FF), (0x370, 0x37D), (0x37F, 0x1FFF), (0x200C, 0x200D), (0x2070, 0x218F),
    (0x2C00, 0x2FEF), (0x3001, 0xD7FF), (0xF900, 0xFDCF), (0xFDF0, 0xFFFD),
    (0x10000, 0xEFFFF)] c.toNat

def isNameChar (c : Char) : Bool :=
  isNameStart c || inRanges [(0x2D, 0x2E), (0x30, 0x39), (0xB7, 0xB7), (0x300, 0x36F),
    (0x203F, 0x2040)] c.toNat

abbrev Name := List Char

/-- The name behind the prefix. -/
def localName (name : Name) : Name := (name.reverse.takeWhile (· ≠ ':')).reverse

def hexDigit? (c : Char) : Option Nat :=
  if c.isDigit then some (c.toNat - 48)
  else if 'a' ≤ c && c ≤ 'f' then some (c.toNat - 87)
  else if 'A' ≤ c && c ≤ 'F' then some (c.toNat - 55)
  else none

/-- The number in a character reference. -/
def number? (base : Nat) (digits : List Char) : Option Nat :=
  digits.foldl (fun n c => n.bind fun n => (hexDigit? c).bind fun d =>
    if d < base then some (n * base + d) else none) (some 0)

/-- What may stand between `&` and `;`. -/
def isReference : List Char → Bool
  | '#' :: 'x' :: digits => digits ≠ [] && (number? 16 digits).any (inRanges charRanges)
  | '#' :: digits => digits ≠ [] && (number? 10 digits).any (inRanges charRanges)
  | name => ["amp".toList, "lt".toList, "gt".toList, "apos".toList, "quot".toList].contains name

/-! ## Control -/

inductive Kind where
  | element (name : Name)
  | declaration
  deriving DecidableEq, Repr

abbrev Attributes := List (Name × List Char)

/-- What the characters so far are in the middle of. -/
inductive Mode where
  | start
  /-- Character data with brackets at its end, or what stands outside the root. -/
  | text (brackets : Nat)
  | reference (name : List Char)
  | markup (first : Bool)
  | bang
  | bangDash
  | comment (dashes : Nat)
  | cdataOpen (read : Nat)
  | cdata (brackets : Nat)
  | target (first : Bool) (name : Name)
  | targetEnd
  | instruction (question : Bool)
  | tagName (name : Name)
  | attributes (kind : Kind) (found : Attributes) (spaced : Bool)
  | attributeName (kind : Kind) (found : Attributes) (name : Name)
  | attributeEq (kind : Kind) (found : Attributes) (name : Name)
  | attributeOpen (kind : Kind) (found : Attributes) (name : Name)
  | attributeValue (kind : Kind) (found : Attributes) (name : Name) (quote : Char)
      (value : List Char)
  | attributeReference (kind : Kind) (found : Attributes) (name : Name) (quote : Char)
      (value : List Char) (reference : List Char)
  | tagEnd (name : Name)
  | declarationEnd
  | closeName (name : Name)
  | closeSpace (name : Name)
  deriving DecidableEq, Repr

/-- The open elements stand with the innermost first. -/
structure Control where
  mode : Mode
  stack : List Name
  rooted : Bool
  deriving DecidableEq, Repr

def initial : Control := { mode := .start, stack := [], rooted := false }

def isVersionNumber : List Char → Bool
  | '1' :: '.' :: digits => digits ≠ [] && digits.all Char.isDigit
  | _ => false

def isEncoding : List Char → Bool
  | [] => false
  | c :: cs => c.isAlpha && cs.all fun c => c.isAlphanum || ['.', '_', '-'].contains c

def isStandalone (value : List Char) : Bool := value = "yes".toList || value = "no".toList

/-- Version, encoding and standalone, in this order. -/
def isDeclaration : Attributes → Bool
  | [version] => version.1 = "version".toList && isVersionNumber version.2
  | [version, last] => version.1 = "version".toList && isVersionNumber version.2 &&
      (last.1 = "encoding".toList && isEncoding last.2 ||
        last.1 = "standalone".toList && isStandalone last.2)
  | [version, encoding, standalone] => version.1 = "version".toList && isVersionNumber version.2 &&
      (encoding.1 = "encoding".toList && isEncoding encoding.2) &&
      (standalone.1 = "standalone".toList && isStandalone standalone.2)
  | _ => false

namespace Control

def into (s : Control) (mode : Mode) : Control := { s with mode := mode }

def opened (s : Control) (name : Name) : Control :=
  { mode := .text 0, stack := name :: s.stack, rooted := s.stack.isEmpty || s.rooted }

/-- An element without content. -/
def passed (s : Control) : Control :=
  { mode := .text 0, stack := s.stack, rooted := s.stack.isEmpty || s.rooted }

/-- The end tag must have the name of the innermost element. -/
def closed? (s : Control) (name : Name) : Option Control :=
  match s.stack with
  | [] => none
  | top :: rest =>
    if top = name then some { mode := .text 0, stack := rest, rooted := s.rooted } else none

end Control

def lowered (name : Name) : Name := name.map Char.toLower

/-- Text with brackets at its end, where `k` were before. -/
def brackets (k : Nat) (c : Char) : Nat := if c = ']' then k + 1 else 0

def step (s : Control) (c : Char) : Option Control :=
  match s.mode with
  | .start =>
    if isSpace c then some (s.into (.text 0))
    else if c = '<' then some (s.into (.markup true))
    else none
  | .text k =>
    if c = '<' then some (s.into (.markup false))
    else if s.stack.isEmpty then if isSpace c then some (s.into (.text 0)) else none
    else if c = '&' then some (s.into (.reference []))
    else if c = '>' && 2 ≤ k then none
    else if isChar c then some (s.into (.text (brackets k c)))
    else none
  | .reference name =>
    if c = ';' then if isReference name then some (s.into (.text 0)) else none
    else if isNameChar c || c = '#' then some (s.into (.reference (name ++ [c])))
    else none
  | .markup first =>
    if c = '!' then some (s.into .bang)
    else if c = '?' then some (s.into (.target first []))
    else if c = '/' then
      if first || s.stack.isEmpty then none else some (s.into (.closeName []))
    else if isNameStart c && !(s.stack.isEmpty && s.rooted) then some (s.into (.tagName [c]))
    else none
  | .bang =>
    if c = '-' then some (s.into .bangDash)
    else if c = '[' && !s.stack.isEmpty then some (s.into (.cdataOpen 0))
    else none
  | .bangDash => if c = '-' then some (s.into (.comment 0)) else none
  | .comment k =>
    if 2 ≤ k then if c = '>' then some (s.into (.text 0)) else none
    else if c = '-' then some (s.into (.comment (k + 1)))
    else if isChar c then some (s.into (.comment 0))
    else none
  | .cdataOpen read =>
    if "CDATA[".toList[read]? = some c then
      some (s.into (if read = 5 then .cdata 0 else .cdataOpen (read + 1)))
    else none
  | .cdata k =>
    if c = '>' && 2 ≤ k then some (s.into (.text 0))
    else if isChar c then some (s.into (.cdata (brackets k c)))
    else none
  | .target first name =>
    if name.isEmpty then if isNameStart c then some (s.into (.target first [c])) else none
    else if isNameChar c then some (s.into (.target first (name ++ [c])))
    else if first && name = "xml".toList then
      if isSpace c then some (s.into (.attributes .declaration [] true)) else none
    else if lowered name = "xml".toList then none
    else if isSpace c then some (s.into (.instruction false))
    else if c = '?' then some (s.into .targetEnd)
    else none
  | .targetEnd => if c = '>' then some (s.into (.text 0)) else none
  | .instruction question =>
    if question && c = '>' then some (s.into (.text 0))
    else if isChar c then some (s.into (.instruction (c = '?')))
    else none
  | .tagName name =>
    if isNameChar c then some (s.into (.tagName (name ++ [c])))
    else if isSpace c then some (s.into (.attributes (.element name) [] true))
    else if c = '/' then some (s.into (.tagEnd name))
    else if c = '>' then some (s.opened name)
    else none
  | .attributes kind found spaced =>
    if isSpace c then some (s.into (.attributes kind found true))
    else if spaced && isNameStart c then some (s.into (.attributeName kind found [c]))
    else
      match kind with
      | .element name =>
        if c = '/' then some (s.into (.tagEnd name))
        else if c = '>' then some (s.opened name)
        else none
      | .declaration =>
        if c = '?' && isDeclaration found then some (s.into .declarationEnd) else none
  | .attributeName kind found name =>
    if isNameChar c then some (s.into (.attributeName kind found (name ++ [c])))
    else if found.any (fun pair => pair.1 = name) then none
    else if isSpace c then some (s.into (.attributeEq kind found name))
    else if c = '=' then some (s.into (.attributeOpen kind found name))
    else none
  | .attributeEq kind found name =>
    if isSpace c then some s
    else if c = '=' then some (s.into (.attributeOpen kind found name))
    else none
  | .attributeOpen kind found name =>
    if isSpace c then some s
    else if c = '\x22' || c = '\x27' then some (s.into (.attributeValue kind found name c []))
    else none
  | .attributeValue kind found name quote value =>
    if c = '<' then none
    else if c = quote then some (s.into (.attributes kind (found ++ [(name, value)]) false))
    else if c = '&' then some (s.into (.attributeReference kind found name quote value []))
    else if isChar c then some (s.into (.attributeValue kind found name quote (value ++ [c])))
    else none
  | .attributeReference kind found name quote value reference =>
    if c = ';' then
      if isReference reference then
        some (s.into (.attributeValue kind found name quote (value ++ '&' :: reference ++ [';'])))
      else none
    else if isNameChar c || c = '#' then
      some (s.into (.attributeReference kind found name quote value (reference ++ [c])))
    else none
  | .tagEnd _ => if c = '>' then some s.passed else none
  | .declarationEnd => if c = '>' then some (s.into (.text 0)) else none
  | .closeName name =>
    if name.isEmpty then if isNameStart c then some (s.into (.closeName [c])) else none
    else if isNameChar c then some (s.into (.closeName (name ++ [c])))
    else if isSpace c then some (s.into (.closeSpace name))
    else if c = '>' then s.closed? name
    else none
  | .closeSpace name =>
    if isSpace c then some s
    else if c = '>' then s.closed? name
    else none

def run (s : Control) : List Char → Option Control
  | [] => some s
  | c :: cs => (step s c).bind fun next => run next cs

/-- The root is closed, and nothing else is open. -/
def Control.isDone (s : Control) : Bool :=
  match s.mode with
  | .text _ => s.stack.isEmpty && s.rooted
  | _ => false

def isWellFormed (text : List Char) : Bool := (run initial text).any Control.isDone

/-! ## Children of the root -/

/-- The text of the child so far, and those that are complete. -/
structure Log where
  current : List Char
  found : List (List Char)
  deriving DecidableEq, Repr

namespace Control

/-- Between the children of the root. -/
def atRoot (s : Control) : Bool :=
  match s.mode, s.stack with
  | .text _, [_] => true
  | _, _ => false

/-- The element that a `>` ends. -/
def ends (s : Control) : Option Name :=
  match s.mode with
  | .tagEnd name => some name
  | .closeName name => some name
  | .closeSpace name => some name
  | _ => none

end Control

/-- The child of the root that is open. -/
def childName? : List Name → Option Name
  | [] => none
  | [_] => none
  | [name, _] => some name
  | _ :: name :: root :: rest => childName? (name :: root :: rest)

/-- In a child of the root with the local name `tag`, behind its start tag. -/
def Control.inside (tag : Name) (s : Control) : Bool :=
  (childName? s.stack).any fun name => localName name = tag

/-- A child with the local name `tag` ends with `c`, and the root is left open. -/
def completes (tag : Name) (s : Control) (c : Char) (next : Control) : Bool :=
  match next.stack with
  | [_] => c = '>' && s.ends.any fun name => localName name = tag
  | _ => false

def record (tag : Name) (s : Control) (c : Char) (next : Control) (log : Log) : Log :=
  let current := if s.atRoot then [c] else log.current ++ [c]
  { current := current
    found := if completes tag s c next then log.found ++ [current] else log.found }

def collect (tag : Name) (s : Control) (log : Log) : List Char → Log
  | [] => log
  | c :: cs =>
    match step s c with
    | none => log
    | some next => collect tag next (record tag s c next log) cs

/-- The texts of the children of the root with the local name `tag`. -/
def children (tag : Name) (text : List Char) : List (List Char) :=
  (collect tag initial { current := [], found := [] } text).found

/-! ## What a step does -/

/-- Comments, sections and instructions. -/
def Mode.isInert : Mode → Bool
  | .comment _ => true
  | .cdata _ => true
  | .instruction _ => true
  | _ => false

def Mode.isText : Mode → Bool
  | .text _ => true
  | _ => false

inductive Move (s : Control) (c : Char) (next : Control) : Prop where
  | kept (stack : next.stack = s.stack)
      (inert : s.mode.isInert = true → next.mode.isInert = true ∨ next.mode.isText = true)
  | opened (name : Name) (eq : next = s.opened name) (inert : s.mode.isInert = false)
      (text : s.mode.isText = false) (ends : s.ends = none)
  | closed (name : Name) (rest : List Name) (char : c = '>') (ends : s.ends = some name)
      (stack : s.stack = name :: rest) (eq : next = ⟨.text 0, rest, s.rooted⟩)

theorem move_of_into {s next : Control} {c : Char} {mode : Mode}
    (h : some (s.into mode) = some next)
    (hinert : s.mode.isInert = true → mode.isInert = true ∨ mode.isText = true) :
    Move s c next := by
  cases h
  exact .kept rfl hinert

theorem move_of_closed {s next : Control} {c : Char} {name : Name} (hends : s.ends = some name)
    (hc : c = '>') (h : s.closed? name = some next) : Move s c next := by
  unfold Control.closed? at h
  split at h
  · cases h
  · rename_i top rest hstack
    by_cases htop : top = name
    · rw [if_pos htop] at h
      cases h
      rw [htop] at hstack
      exact .closed name rest hc hends hstack rfl
    · rw [if_neg htop] at h
      cases h

theorem step_move {s next : Control} {c : Char} (h : step s c = some next) : Move s c next := by
  obtain ⟨mode, stack, rooted⟩ := s
  cases mode with
  | comment k =>
    unfold step at h
    dsimp only at h
    split at h
    · split at h
      · exact move_of_into h fun _ => .inr rfl
      · cases h
    · split at h
      · exact move_of_into h fun _ => .inl rfl
      · split at h
        · exact move_of_into h fun _ => .inl rfl
        · cases h
  | cdata k =>
    unfold step at h
    dsimp only at h
    split at h
    · exact move_of_into h fun _ => .inr rfl
    · split at h
      · exact move_of_into h fun _ => .inl rfl
      · cases h
  | instruction question =>
    unfold step at h
    dsimp only at h
    split at h
    · exact move_of_into h fun _ => .inr rfl
    · split at h
      · exact move_of_into h fun _ => .inl rfl
      · cases h
  | tagName name =>
    unfold step at h
    dsimp only at h
    split at h
    · exact move_of_into h fun hinert => nomatch hinert
    · split at h
      · exact move_of_into h fun hinert => nomatch hinert
      · split at h
        · exact move_of_into h fun hinert => nomatch hinert
        · split at h
          · cases h
            exact .opened name rfl rfl rfl rfl
          · cases h
  | attributes kind found spaced =>
    unfold step at h
    dsimp only at h
    split at h
    · exact move_of_into h fun hinert => nomatch hinert
    · split at h
      · exact move_of_into h fun hinert => nomatch hinert
      · cases kind with
        | element name =>
          dsimp only at h
          split at h
          · exact move_of_into h fun hinert => nomatch hinert
          · split at h
            · cases h
              exact .opened name rfl rfl rfl rfl
            · cases h
        | declaration =>
          dsimp only at h
          split at h
          · exact move_of_into h fun hinert => nomatch hinert
          · cases h
  | closeName name =>
    unfold step at h
    dsimp only at h
    split at h
    · split at h
      · exact move_of_into h fun hinert => nomatch hinert
      · cases h
    · split at h
      · exact move_of_into h fun hinert => nomatch hinert
      · split at h
        · exact move_of_into h fun hinert => nomatch hinert
        · split at h
          · exact move_of_closed rfl ‹_› h
          · cases h
  | closeSpace name =>
    unfold step at h
    dsimp only at h
    split at h
    · cases h
      exact .kept rfl fun hinert => nomatch hinert
    · split at h
      · exact move_of_closed rfl ‹_› h
      · cases h
  | _ =>
    -- the other modes keep the open elements
    unfold step at h
    dsimp only at h
    repeat' split at h
    all_goals first
      | (cases h; done)
      | (cases h; exact .kept rfl fun hinert => nomatch hinert)

/-! ## Readings that meet -/

/-- No child with the tag is open, so that what is read of the current one is dropped. -/
structure Loose (tag : Name) (s : Control) : Prop where
  inside : s.inside tag = false
  mode : ∀ root, s.stack = [root] → s.mode.isInert = true ∨ s.mode.isText = true

theorem loose_of_root {tag root : Name} {rooted : Bool} : Loose tag ⟨.text 0, [root], rooted⟩ where
  inside := rfl
  mode := fun _ _ => .inr rfl

theorem loose_of_empty {tag : Name} {s : Control} (h : s.stack = []) : Loose tag s where
  inside := by
    unfold Control.inside
    rw [h]
    rfl
  mode := by
    intro root hroot
    rw [h] at hroot
    cases hroot

theorem loose_of_deep {tag : Name} {s : Control} {top below : Name} {rest : List Name}
    (hstack : s.stack = top :: below :: rest) (hinside : s.inside tag = false) : Loose tag s where
  inside := hinside
  mode := by
    intro root hroot
    rw [hstack] at hroot
    cases hroot

theorem completes_of_empty {tag : Name} {s next : Control} {c : Char} (h : next.stack = []) :
    completes tag s c next = false := by
  unfold completes
  rw [h]

theorem completes_of_deep {tag : Name} {s next : Control} {c : Char} {top below : Name}
    {rest : List Name} (h : next.stack = top :: below :: rest) :
    completes tag s c next = false := by
  unfold completes
  rw [h]

theorem completes_of_ends {tag : Name} {s next : Control} {c : Char} (h : s.ends = none) :
    completes tag s c next = false := by
  unfold completes
  rw [h]
  split
  · exact Bool.and_false _
  · rfl

theorem ends_of_inert {s : Control} (h : s.mode.isInert = true) : s.ends = none := by
  obtain ⟨mode, stack, rooted⟩ := s
  cases mode with
  | comment k => rfl
  | cdata k => rfl
  | instruction question => rfl
  | _ => cases h

/-- A point between the children is reached, or nothing of the tag opens or ends. -/
theorem loose_step {tag : Name} {s next : Control} {c : Char} (h : step s c = some next)
    (hloose : Loose tag s) :
    s.atRoot = true ∨ (Loose tag next ∧ completes tag s c next = false) := by
  cases step_move h with
  | kept hstack hinert =>
    cases hs : s.stack with
    | nil =>
      rw [hs] at hstack
      exact .inr ⟨loose_of_empty hstack, completes_of_empty hstack⟩
    | cons top below =>
      cases below with
      | nil =>
        rcases hloose.mode top hs with hmode | hmode
        · refine .inr ⟨⟨?_, fun _ _ => hinert hmode⟩, completes_of_ends (ends_of_inert hmode)⟩
          unfold Control.inside
          rw [hstack, hs]
          rfl
        · refine .inl ?_
          unfold Control.atRoot
          rw [hs]
          cases hm : s.mode with
          | text k => rfl
          | _ =>
            rw [hm] at hmode
            cases hmode
      | cons root rest =>
        rw [hs] at hstack
        refine .inr ⟨loose_of_deep hstack ?_, completes_of_deep hstack⟩
        have hinside := hloose.inside
        unfold Control.inside at hinside ⊢
        rw [hstack, ← hs]
        exact hinside
  | opened name heq hinert htext hends =>
    refine .inr ⟨?_, completes_of_ends hends⟩
    subst heq
    cases hs : s.stack with
    | nil =>
      unfold Control.opened
      rw [hs]
      exact loose_of_root
    | cons top below =>
      cases below with
      | nil =>
        rcases hloose.mode top hs with hmode | hmode
        · rw [hinert] at hmode
          cases hmode
        · rw [htext] at hmode
          cases hmode
      | cons root rest =>
        refine loose_of_deep (congrArg (name :: ·) hs) ?_
        have hinside := hloose.inside
        unfold Control.inside Control.opened at *
        rw [hs] at hinside ⊢
        exact hinside
  | closed name rest hc hends hstack heq =>
    subst heq
    cases rest with
    | nil => exact .inr ⟨loose_of_empty rfl, completes_of_empty rfl⟩
    | cons top below =>
      have hinside := hloose.inside
      unfold Control.inside at hinside
      rw [hstack] at hinside
      cases below with
      | nil =>
        refine .inr ⟨loose_of_root, ?_⟩
        unfold completes
        dsimp only
        rw [hends]
        exact (congrArg _ hinside).trans (Bool.and_false _)
      | cons root rest => exact .inr ⟨loose_of_deep rfl hinside, completes_of_deep rfl⟩

/-- Two logs that differ in nothing that will be collected. -/
def Same (tag : Name) (s : Control) (log log' : Log) : Prop :=
  log.current = log'.current ∨ Loose tag s

theorem record_same {tag : Name} {s next : Control} {c : Char} {log log' : Log}
    (h : step s c = some next) (hsame : Same tag s log log') :
    ∃ more, (record tag s c next log).found = log.found ++ more ∧
      (record tag s c next log').found = log'.found ++ more ∧
      Same tag next (record tag s c next log) (record tag s c next log') := by
  have hequal : (s.atRoot = true ∨ log.current = log'.current) →
      (record tag s c next log).current = (record tag s c next log').current := by
    intro hcases
    unfold record
    dsimp only
    rcases hcases with hroot | hcurrent
    · rw [if_pos hroot, if_pos hroot]
    · rw [hcurrent]
  have hclear : (s.atRoot = true ∨ log.current = log'.current) ∨
      (Loose tag next ∧ completes tag s c next = false) := by
    rcases hsame with hcurrent | hloose
    · exact .inl (.inr hcurrent)
    · rcases loose_step h hloose with hroot | hnext
      · exact .inl (.inl hroot)
      · exact .inr hnext
  rcases hclear with hcases | ⟨hloose, hnot⟩
  · have hcurrent := hequal hcases
    by_cases hdone : completes tag s c next = true
    · refine ⟨[(record tag s c next log).current], ?_, ?_, .inl hcurrent⟩
      · unfold record
        dsimp only
        rw [if_pos hdone]
      · rw [hcurrent]
        unfold record
        dsimp only
        rw [if_pos hdone]
    · refine ⟨[], ?_, ?_, .inl hcurrent⟩
      · unfold record
        dsimp only
        rw [if_neg hdone, List.append_nil]
      · unfold record
        dsimp only
        rw [if_neg hdone, List.append_nil]
  · refine ⟨[], ?_, ?_, .inr hloose⟩
    · unfold record
      dsimp only
      rw [hnot, List.append_nil]
      rfl
    · unfold record
      dsimp only
      rw [hnot, List.append_nil]
      rfl

theorem collect_same {tag : Name} {s : Control} {log log' : Log} (text : List Char)
    (hsame : Same tag s log log') :
    ∃ more, (collect tag s log text).found = log.found ++ more ∧
      (collect tag s log' text).found = log'.found ++ more := by
  induction text generalizing s log log' with
  | nil => exact ⟨[], (List.append_nil _).symm, (List.append_nil _).symm⟩
  | cons c cs ih =>
    unfold collect
    cases hstep : step s c with
    | none => exact ⟨[], (List.append_nil _).symm, (List.append_nil _).symm⟩
    | some next =>
      dsimp only
      obtain ⟨now, hleft, hright, hnext⟩ := record_same hstep hsame
      obtain ⟨later, hleft', hright'⟩ := ih hnext
      refine ⟨now ++ later, ?_, ?_⟩
      · rw [hleft', hleft, List.append_assoc]
      · rw [hright', hright, List.append_assoc]

/-- What is found stays found. -/
theorem collect_found (tag : Name) (s : Control) (log : Log) (text : List Char) :
    log.found <+: (collect tag s log text).found := by
  have hsame : Same tag s log log := .inl rfl
  obtain ⟨more, hmore, _⟩ := collect_same text hsame
  exact ⟨more, hmore.symm⟩

/-! ## Readings that stay apart -/

theorem completes_true {tag : Name} {s : Control} {name root : Name} {rooted : Bool}
    (hends : s.ends = some name) (hname : localName name = tag) :
    completes tag s '>' ⟨.text 0, [root], rooted⟩ = true := by
  unfold completes
  dsimp only
  rw [hends, Option.any_some, hname]
  exact (Bool.and_eq_true _ _).mpr ⟨rfl, decide_eq_true rfl⟩

theorem atRoot_of_deep {s : Control} {top below : Name} {rest : List Name}
    (h : s.stack = top :: below :: rest) : s.atRoot = false := by
  unfold Control.atRoot
  rw [h]
  split
  · rename_i heq
    cases heq
  · rfl

theorem record_of_false {tag : Name} {s next : Control} {c : Char} (log : Log)
    (hroot : s.atRoot = false) (hnot : completes tag s c next = false) :
    record tag s c next log = { current := log.current ++ [c], found := log.found } := by
  unfold record
  rw [hroot, hnot]
  rfl

/-- The child is read on, or it ends here. -/
theorem inside_step {tag : Name} {s next : Control} {c : Char} (h : step s c = some next)
    (hinside : s.inside tag = true) :
    s.atRoot = false ∧ ((next.inside tag = true ∧ completes tag s c next = false) ∨
      (Loose tag next ∧ completes tag s c next = true)) := by
  cases hs : s.stack with
  | nil =>
    unfold Control.inside at hinside
    rw [hs] at hinside
    cases hinside
  | cons top below =>
    cases below with
    | nil =>
      unfold Control.inside at hinside
      rw [hs] at hinside
      cases hinside
    | cons root rest =>
      refine ⟨atRoot_of_deep hs, ?_⟩
      unfold Control.inside at hinside
      cases step_move h with
      | kept hstack hinert =>
        refine .inl ⟨?_, completes_of_deep (hstack.trans hs)⟩
        unfold Control.inside
        rw [hstack]
        exact hinside
      | opened name heq hinert htext hends =>
        refine .inl ⟨?_, completes_of_ends hends⟩
        subst heq
        unfold Control.inside Control.opened
        rw [hs] at hinside ⊢
        exact hinside
      | closed name below hc hends hstack heq =>
        subst heq
        rw [hstack] at hs
        cases hs
        rw [hstack] at hinside
        cases rest with
        | nil =>
          subst hc
          rw [childName?, Option.any_some] at hinside
          exact .inr ⟨loose_of_root, completes_true hends (of_decide_eq_true hinside)⟩
        | cons lower rest => exact .inl ⟨hinside, completes_of_deep rfl⟩

/-- Two logs that differ in the child that is read: the text of the second is longer by `n`. -/
theorem collect_apart {tag : Name} {s last : Control} {log log' : Log} {n : Nat} {text : List Char}
    (hinside : s.inside tag = true) (hlength : log'.current.length = log.current.length + n)
    (hrun : run s text = some last) (hlast : last.stack = []) :
    ∃ child child' more, (collect tag s log text).found = log.found ++ child :: more ∧
      (collect tag s log' text).found = log'.found ++ child' :: more ∧
      child'.length = child.length + n := by
  induction text generalizing s log log' with
  | nil =>
    cases hrun
    unfold Control.inside at hinside
    rw [hlast] at hinside
    cases hinside
  | cons c cs ih =>
    unfold run at hrun
    unfold collect
    cases hstep : step s c with
    | none =>
      rw [hstep] at hrun
      cases hrun
    | some next =>
      rw [hstep, Option.bind_some] at hrun
      dsimp only
      obtain ⟨hroot, ⟨hnext, hnot⟩ | ⟨hloose, hdone⟩⟩ := inside_step hstep hinside
      · have hrecord := record_of_false log hroot hnot
        have hrecord' := record_of_false log' hroot hnot
        rw [hrecord, hrecord']
        refine ih hnext ?_ hrun
        dsimp only
        rw [List.length_append, List.length_append, hlength]
        omega
      · have hsame : Same tag next (record tag s c next log) (record tag s c next log') :=
          .inr hloose
        obtain ⟨more, hleft, hright⟩ := collect_same cs hsame
        have hfound : ∀ l : Log, (record tag s c next l).found = l.found ++ [l.current ++ [c]] := by
          intro l
          unfold record
          rw [hroot, hdone]
          rfl
        refine ⟨log.current ++ [c], log'.current ++ [c], more, ?_, ?_, ?_⟩
        · rw [hleft, hfound, List.append_assoc]
          rfl
        · rw [hright, hfound, List.append_assoc]
          rfl
        · rw [List.length_append, List.length_append, hlength]
          omega

/-! ## In pieces -/

theorem run_append (s : Control) (before behind : List Char) :
    run s (before ++ behind) = (run s before).bind fun next => run next behind := by
  induction before generalizing s with
  | nil => rfl
  | cons c cs ih =>
    rw [List.cons_append, run, run, Option.bind_assoc]
    congr 1
    funext next
    exact ih next

theorem collect_append {tag : Name} {s next : Control} {before : List Char} (log : Log)
    (behind : List Char) (h : run s before = some next) :
    collect tag s log (before ++ behind) = collect tag next (collect tag s log before) behind := by
  induction before generalizing s log with
  | nil =>
    cases h
    rfl
  | cons c cs ih =>
    unfold run at h
    rw [List.cons_append, collect, collect]
    cases hstep : step s c with
    | none =>
      rw [hstep] at h
      cases h
    | some between =>
      rw [hstep, Option.bind_some] at h
      exact ih _ h

/-- Nothing is completed, and the points between the children are not reached. -/
def isQuiet (tag : Name) (s : Control) : List Char → Bool
  | [] => true
  | c :: cs =>
    match step s c with
    | none => false
    | some next => !s.atRoot && !completes tag s c next && isQuiet tag next cs

theorem collect_of_quiet {tag : Name} {s : Control} (log : Log) {text : List Char}
    (h : isQuiet tag s text = true) :
    collect tag s log text = { current := log.current ++ text, found := log.found } := by
  induction text generalizing s log with
  | nil =>
    rw [List.append_nil]
    rfl
  | cons c cs ih =>
    unfold isQuiet at h
    unfold collect
    cases hstep : step s c with
    | none =>
      rw [hstep] at h
      cases h
    | some next =>
      rw [hstep] at h
      dsimp only at h ⊢
      rw [Bool.and_eq_true, Bool.and_eq_true] at h
      have hroot : s.atRoot = false := by simpa using h.1.1
      have hnot : completes tag s c next = false := by simpa using h.1.2
      rw [record_of_false log hroot hnot, ih _ h.2, List.append_assoc]
      rfl

/-- What is found is read. -/
theorem found_infix {tag : Name} {s : Control} {log : Log} {before text : List Char}
    (hcurrent : log.current <:+ before) (hfound : ∀ child ∈ log.found, child <:+: before) :
    ∀ child ∈ (collect tag s log text).found, child <:+: before ++ text := by
  induction text generalizing s log before with
  | nil =>
    rw [List.append_nil]
    exact hfound
  | cons c cs ih =>
    unfold collect
    cases hstep : step s c with
    | none =>
      intro child hchild
      exact (hfound child hchild).trans (List.prefix_append _ _).isInfix
    | some next =>
      dsimp only
      have hsuffix : (record tag s c next log).current <:+ before ++ [c] := by
        unfold record
        dsimp only
        split
        · exact List.suffix_append _ _
        · obtain ⟨front, hfront⟩ := hcurrent
          exact ⟨front, by rw [← hfront, List.append_assoc]⟩
      rw [List.append_cons]
      refine ih hsuffix ?_
      intro child hchild
      by_cases hdone : completes tag s c next = true
      · have hrecord : (record tag s c next log).found
            = log.found ++ [(record tag s c next log).current] := by
          unfold record
          dsimp only
          rw [if_pos hdone]
        rw [hrecord] at hchild
        rcases List.mem_append.mp hchild with hold | hnew
        · exact (hfound child hold).trans (List.prefix_append _ _).isInfix
        · rw [List.mem_singleton.mp hnew]
          exact hsuffix.isInfix
      · have hrecord : (record tag s c next log).found = log.found := by
          unfold record
          dsimp only
          rw [if_neg hdone]
        rw [hrecord] at hchild
        exact (hfound child hchild).trans (List.prefix_append _ _).isInfix

theorem children_infix {tag : Name} {text child : List Char} (h : child ∈ children tag text) :
    child <:+: text := by
  have hnone : ∀ child ∈ (Log.mk [] []).found, child <:+: [] := fun _ hmem => nomatch hmem
  have hinfix := found_infix List.suffix_rfl hnone child h
  rw [List.nil_append] at hinfix
  exact hinfix

/-! ## White space around the document -/

theorem completes_of_ne {tag : Name} {s next : Control} {c : Char} (h : c ≠ '>') :
    completes tag s c next = false := by
  unfold completes
  rw [decide_eq_false h]
  split
  · rfl
  · rfl

theorem collect_found_of_open {tag : Name} {s : Control} {log : Log} {text : List Char}
    (h : '>' ∉ text) : (collect tag s log text).found = log.found := by
  induction text generalizing s log with
  | nil => rfl
  | cons c cs ih =>
    rw [List.mem_cons, not_or] at h
    unfold collect
    cases hstep : step s c with
    | none => rfl
    | some next =>
      dsimp only
      rw [ih h.2]
      unfold record
      rw [completes_of_ne (Ne.symm h.1)]
      rfl

theorem closed_ne_start {s next : Control} {name : Name} (h : s.closed? name = some next) :
    next.mode ≠ .start := by
  unfold Control.closed? at h
  split at h
  · cases h
  · split at h
    · cases h
      intro hstart
      cases hstart
    · cases h

theorem step_ne_start {s next : Control} {c : Char} (h : step s c = some next) :
    next.mode ≠ .start := by
  intro hstart
  obtain ⟨mode, stack, rooted⟩ := s
  unfold step at h
  cases mode with
  | _ =>
    dsimp only at h
    repeat' split at h
    all_goals first
      | (cases h; done)
      | (cases h; cases hstart)
      | exact closed_ne_start h hstart

/-- A document is done before the white space that ends it. -/
theorem done_before {s next : Control} {c : Char} (h : step s c = some next)
    (hnext : next.isDone = true) (hclose : c ≠ '>') (hend : c ≠ ';') :
    s.isDone = true ∨ (s.mode = .start ∧ s.rooted = true) := by
  obtain ⟨mode, stack, rooted⟩ := s
  cases mode with
  | start =>
    refine .inr ⟨rfl, ?_⟩
    unfold step at h
    dsimp only at h
    split at h
    · cases h
      exact ((Bool.and_eq_true _ _).mp hnext).2
    · split at h
      · cases h
        cases hnext
      · cases h
  | text k =>
    unfold step at h
    dsimp only at h
    split at h
    · cases h
      cases hnext
    · cases stack with
      | nil =>
        rw [List.isEmpty_nil, if_pos rfl] at h
        split at h
        · cases h
          exact .inl hnext
        · cases h
      | cons top rest =>
        rw [List.isEmpty_cons, if_neg Bool.false_ne_true] at h
        repeat' split at h
        all_goals first
          | (cases h; done)
          | (cases h; cases hnext)
  | reference name =>
    unfold step at h
    dsimp only at h
    rw [if_neg hend] at h
    split at h
    · cases h
      cases hnext
    · cases h
  | cdata k =>
    unfold step at h
    dsimp only at h
    rw [decide_eq_false hclose, Bool.false_and, if_neg Bool.false_ne_true] at h
    split at h
    · cases h
      cases hnext
    · cases h
  | instruction question =>
    unfold step at h
    dsimp only at h
    rw [decide_eq_false hclose, Bool.and_false, if_neg Bool.false_ne_true] at h
    split at h
    · cases h
      cases hnext
    · cases h
  | _ =>
    -- no other mode leads to text without one of the two characters
    unfold step at h
    dsimp only at h
    repeat' split at h
    all_goals first
      | (cases h; done)
      | (cases h; cases hnext)
      | exact absurd ‹c = '>'› hclose

theorem run_ne_start {s next : Control} {text : List Char} (h : run s text = some next)
    (hs : s.mode ≠ .start) : next.mode ≠ .start := by
  induction text generalizing s with
  | nil =>
    cases h
    exact hs
  | cons c cs ih =>
    unfold run at h
    obtain ⟨between, hstep, hrun⟩ := Option.bind_eq_some_iff.mp h
    exact ih hrun (step_ne_start hstep)

/-- Without the characters that begin or end markup, or end a reference. -/
def isBlank (text : List Char) : Bool := text.all fun c => c ≠ '>' && c ≠ ';' && c ≠ '<'

theorem done_before_all {s next : Control} {text : List Char} (h : run s text = some next)
    (hnext : next.isDone = true) (hblank : isBlank text = true) :
    s.isDone = true ∨ (s.mode = .start ∧ s.rooted = true) := by
  induction text generalizing s with
  | nil =>
    cases h
    exact .inl hnext
  | cons c cs ih =>
    unfold run at h
    obtain ⟨between, hstep, hrun⟩ := Option.bind_eq_some_iff.mp h
    unfold isBlank at hblank
    rw [List.all_cons, Bool.and_eq_true] at hblank
    have hc : (c ≠ '>' ∧ c ≠ ';') ∧ c ≠ '<' := by simpa using hblank.1
    rcases ih hrun hblank.2 with hdone | ⟨hstart, _⟩
    · exact done_before hstep hdone hc.1.1 hc.1.2
    · exact absurd hstart (step_ne_start hstep)

theorem not_mem_of_blank {text : List Char} (h : isBlank text = true) : '>' ∉ text := by
  intro hmem
  unfold isBlank at h
  have hall := List.all_eq_true.mp h _ hmem
  revert hall
  decide

/-- White space behind a document changes nothing. -/
theorem behind_document {text blank : List Char} (h : isWellFormed (text ++ blank) = true)
    (hblank : isBlank blank = true) :
    isWellFormed text = true ∧ ∀ tag, children tag (text ++ blank) = children tag text := by
  unfold isWellFormed at h ⊢
  rw [run_append] at h
  cases hrun : run initial text with
  | none =>
    rw [hrun] at h
    cases h
  | some s =>
    rw [hrun, Option.bind_some, Option.any_eq_true] at h
    obtain ⟨last, hlast, hdone⟩ := h
    refine ⟨?_, ?_⟩
    · rcases done_before_all hlast hdone hblank with hdone | ⟨hmode, hrooted⟩
      · exact hdone
      · cases text with
        | nil =>
          cases hrun
          cases hrooted
        | cons c cs =>
          unfold run at hrun
          obtain ⟨next, hstep, hrest⟩ := Option.bind_eq_some_iff.mp hrun
          exact absurd hmode (run_ne_start hrest (step_ne_start hstep))
    intro tag
    unfold children
    rw [collect_append _ _ hrun, collect_found_of_open (not_mem_of_blank hblank)]

/-! ## White space before the document -/

/-- What white space at the beginning leads to. -/
def outside : Control := { mode := .text 0, stack := [], rooted := false }

/-- The second control may take a declaration where the first takes an instruction. -/
inductive Fresh (s : Control) : Control → Prop where
  | same : Fresh s s
  | markup (mode : s.mode = .markup false) (stack : s.stack = []) :
    Fresh s (s.into (.markup true))
  | target (name : Name) (mode : s.mode = .target false name) : Fresh s (s.into (.target true name))

theorem fresh_step {s s' next : Control} {c : Char} (hfresh : Fresh s s')
    (h : step s c = some next) : ∃ next', step s' c = some next' ∧ Fresh next next' := by
  cases hfresh with
  | same => exact ⟨next, h, .same⟩
  | markup hmode hstack =>
    obtain ⟨mode, stack, rooted⟩ := s
    cases hmode
    cases hstack
    by_cases hquestion : c = '?'
    · subst hquestion
      cases h
      exact ⟨_, rfl, .target [] rfl⟩
    · refine ⟨next, ?_, .same⟩
      unfold step at h ⊢
      dsimp only [Control.into] at h ⊢
      rw [if_neg hquestion] at h ⊢
      exact h
  | target name hmode =>
    obtain ⟨mode, stack, rooted⟩ := s
    cases hmode
    unfold step at h ⊢
    dsimp only [Control.into] at h ⊢
    by_cases hempty : name.isEmpty = true
    · rw [if_pos hempty] at h ⊢
      split at h
      · rename_i hname
        cases h
        rw [if_pos hname]
        exact ⟨_, rfl, .target [c] rfl⟩
      · cases h
    · rw [if_neg hempty] at h ⊢
      by_cases hname : isNameChar c = true
      · rw [if_pos hname] at h ⊢
        cases h
        exact ⟨_, rfl, .target (name ++ [c]) rfl⟩
      · rw [if_neg hname, Bool.false_and, if_neg Bool.false_ne_true] at h
        rw [if_neg hname]
        by_cases hxml : lowered name = "xml".toList
        · rw [if_pos hxml] at h
          cases h
        · have hne : ¬ name = "xml".toList := by
            intro heq
            subst heq
            exact hxml rfl
          rw [Bool.true_and, decide_eq_false hne, if_neg Bool.false_ne_true]
          exact ⟨next, h, .same⟩

theorem fresh_log {tag : Name} {s s' next next' : Control} {c : Char} (log : Log)
    (hfresh : Fresh s s') (hnext : Fresh next next') :
    record tag s c next log = record tag s' c next' log := by
  have hroot : s.atRoot = s'.atRoot := by
    cases hfresh with
    | same => rfl
    | markup hmode _ =>
      unfold Control.atRoot Control.into
      rw [hmode]
    | target name hmode =>
      unfold Control.atRoot Control.into
      rw [hmode]
  have hends : s.ends = s'.ends := by
    cases hfresh with
    | same => rfl
    | markup hmode _ =>
      unfold Control.ends Control.into
      rw [hmode]
    | target name hmode =>
      unfold Control.ends Control.into
      rw [hmode]
  have hstack : next.stack = next'.stack := by
    cases hnext with
    | same => rfl
    | markup hmode _ => rfl
    | target name hmode => rfl
  unfold record completes
  rw [hroot, hends, hstack]

theorem fresh_run {s s' last : Control} {text : List Char} (hfresh : Fresh s s')
    (h : run s text = some last) : ∃ last', run s' text = some last' ∧ Fresh last last' ∧
      ∀ tag log, collect tag s log text = collect tag s' log text := by
  induction text generalizing s s' with
  | nil =>
    cases h
    exact ⟨s', rfl, hfresh, fun _ _ => rfl⟩
  | cons c cs ih =>
    unfold run at h
    obtain ⟨next, hstep, hrun⟩ := Option.bind_eq_some_iff.mp h
    obtain ⟨next', hstep', hnext⟩ := fresh_step hfresh hstep
    obtain ⟨last', hrun', hlast, hcollect⟩ := ih hnext hrun
    refine ⟨last', ?_, hlast, ?_⟩
    · unfold run
      rw [hstep', Option.bind_some]
      exact hrun'
    · intro tag log
      unfold collect
      rw [hstep, hstep']
      dsimp only
      rw [fresh_log log hfresh hnext]
      exact hcollect tag _

theorem fresh_done {s s' : Control} (hfresh : Fresh s s') (h : s.isDone = true) :
    s'.isDone = true := by
  cases hfresh with
  | same => exact h
  | markup hmode _ =>
    unfold Control.isDone at h
    rw [hmode] at h
    cases h
  | target name hmode =>
    unfold Control.isDone at h
    rw [hmode] at h
    cases h

theorem run_blank_outside {last : Control} {blank : List Char} (h : run outside blank = some last)
    (hblank : isBlank blank = true) : last = outside := by
  induction blank with
  | nil =>
    cases h
    rfl
  | cons c cs ih =>
    unfold run at h
    obtain ⟨next, hstep, hrun⟩ := Option.bind_eq_some_iff.mp h
    unfold isBlank at hblank
    rw [List.all_cons, Bool.and_eq_true] at hblank
    have hc : (c ≠ '>' ∧ c ≠ ';') ∧ c ≠ '<' := by simpa using hblank.1
    have hnext : next = outside := by
      unfold step outside at hstep
      dsimp only at hstep
      rw [if_neg hc.2, List.isEmpty_nil, if_pos rfl] at hstep
      split at hstep
      · cases hstep
        rfl
      · cases hstep
    subst hnext
    exact ih hrun hblank.2

/-- White space before a document changes nothing. -/
theorem before_document {blank text : List Char} (h : isWellFormed (blank ++ text) = true)
    (hblank : isBlank blank = true) :
    isWellFormed text = true ∧ ∀ tag, children tag (blank ++ text) = children tag text := by
  cases blank with
  | nil => exact ⟨h, fun _ => rfl⟩
  | cons c cs =>
    have hc : (c ≠ '>' ∧ c ≠ ';') ∧ c ≠ '<' := by
      unfold isBlank at hblank
      rw [List.all_cons, Bool.and_eq_true] at hblank
      simpa using hblank.1
    unfold isWellFormed at h ⊢
    rw [run_append] at h
    cases hrun : run initial (c :: cs) with
    | none =>
      rw [hrun] at h
      cases h
    | some s =>
      rw [hrun, Option.bind_some, Option.any_eq_true] at h
      obtain ⟨last, hlast, hdone⟩ := h
      have houtside : s = outside := by
        unfold run at hrun
        obtain ⟨next, hstep, hrest⟩ := Option.bind_eq_some_iff.mp hrun
        unfold step initial at hstep
        dsimp only at hstep
        split at hstep
        · cases hstep
          refine run_blank_outside hrest ?_
          unfold isBlank at hblank ⊢
          rw [List.all_cons, Bool.and_eq_true] at hblank
          exact hblank.2
        · rw [if_neg hc.2] at hstep
          cases hstep
      subst houtside
      -- the first character of the document makes the difference of the two beginnings
      cases text with
      | nil =>
        cases hlast
        cases hdone
      | cons d ds =>
        unfold run at hlast
        obtain ⟨next, hstep, hrest⟩ := Option.bind_eq_some_iff.mp hlast
        have hfirst : ∃ next', step initial d = some next' ∧ Fresh next next' := by
          by_cases hopen : d = '<'
          · subst hopen
            cases hstep
            exact ⟨_, rfl, .markup rfl rfl⟩
          · unfold step outside at hstep
            dsimp only at hstep
            rw [if_neg hopen, List.isEmpty_nil, if_pos rfl] at hstep
            split at hstep
            · rename_i hspace
              cases hstep
              refine ⟨outside, ?_, .same⟩
              unfold step initial
              dsimp only
              rw [if_pos hspace]
              rfl
            · cases hstep
        obtain ⟨next', hstep', hnext⟩ := hfirst
        obtain ⟨last', hrun', hfresh, hcollect⟩ := fresh_run hnext hrest
        refine ⟨?_, ?_⟩
        · rw [Option.any_eq_true]
          refine ⟨last', ?_, fresh_done hfresh hdone⟩
          unfold run
          rw [hstep', Option.bind_some]
          exact hrun'
        · intro tag
          unfold children
          rw [collect_append _ _ hrun]
          have hempty : (collect tag initial ⟨[], []⟩ (c :: cs)).found = [] :=
            collect_found_of_open (not_mem_of_blank hblank)
          have hsame : Same tag outside (collect tag initial ⟨[], []⟩ (c :: cs)) ⟨[], []⟩ :=
            .inr (loose_of_empty rfl)
          obtain ⟨more, hleft, hright⟩ := collect_same (d :: ds) hsame
          rw [hleft, hempty, ← hright]
          unfold collect
          rw [hstep, hstep']
          dsimp only
          have hrecord : record tag outside d next ⟨[], []⟩
              = record tag initial d next' ⟨[], []⟩ := by
            have hstack : next.stack = next'.stack := by
              cases hnext with
              | same => rfl
              | markup hmode _ => rfl
              | target name hmode => rfl
            unfold record completes
            rw [hstack]
            rfl
          rw [hrecord]
          exact congrArg Log.found (hcollect tag _)

end Xml
end Lib
