import Yuance.Lib.Scan

/-!
# Yuance.Lib.Html

HTML as a tree, what a cleaner with a list of allowed elements writes of it, and the text that the
written HTML begins with.

* `Node`, `Policy`: a parsed body, and what of it is kept.
* `writtenAll`: the cleaned tree as text.
* `leadAll`: the text in front of the first element that is kept.
* `startsCaseless_writtenAll`: the cleaned text begins with a plain text where the tree does.
-/

namespace Lib

/-- `text LIKE 'head%'` for a head without wildcards. -/
def startsCaseless : List Char → List Char → Bool
  | [], _ => true
  | _ :: _, [] => false
  | p :: ps, c :: cs => asciiLower p == asciiLower c && startsCaseless ps cs

theorem likePattern_any (text : List Char) : likePattern ['%'] text = true := by
  simp only [likePattern, if_true, List.any_eq_true]
  refine ⟨[], ?_, rfl⟩
  rw [List.mem_tails]
  exact List.nil_suffix

theorem likePattern_head {head text : List Char} (h : ∀ c ∈ head, c ≠ '%' ∧ c ≠ '_') :
    likePattern (head ++ ['%']) text = startsCaseless head text := by
  induction head generalizing text with
  | nil => exact likePattern_any text
  | cons p ps ih =>
    obtain ⟨hany, hone⟩ := h p List.mem_cons_self
    cases text with
    | nil => simp only [List.cons_append, likePattern, if_neg hany, startsCaseless]
    | cons c cs =>
      have hrest := @ih cs fun d hd => h d (List.mem_cons_of_mem p hd)
      simp only [List.cons_append, likePattern, if_neg hany, startsCaseless, hrest, hone, decide_false,
        Bool.false_or]
      rfl

theorem startsCaseless_of_isPrefixOf {head text : List Char} (h : head.isPrefixOf text = true) :
    startsCaseless head text = true := by
  induction head generalizing text with
  | nil => rfl
  | cons p ps ih =>
    cases text with
    | nil => cases h
    | cons c cs =>
      rw [List.isPrefixOf_cons_cons, Bool.and_eq_true, beq_iff_eq] at h
      obtain ⟨rfl, hrest⟩ := h
      simp only [startsCaseless, beq_self_eq_true, Bool.true_and]
      exact ih hrest

/-! ## Trees -/

inductive Node where
  | text (s : List Char)
  | comment (s : List Char)
  | element (name : String) (attributes : List (String × String)) (children : List Node)

/-- What a cleaner keeps of a tree. -/
structure Policy where
  /-- Elements that are kept. -/
  allowed : String → Bool
  /-- Elements that go with what they contain. -/
  dropped : String → Bool
  /-- What is written behind the `<` of an element that is kept, up to its content. -/
  startTag : String → List (String × String) → List Char
  /-- What is written behind the content. -/
  endTag : String → List Char

def nonBreakingSpace : Char := Char.ofNat 160

/-- The characters of a text that are written as entities. -/
def entity : Char → Option (List Char)
  | '&' => some "&amp;".toList
  | '<' => some "&lt;".toList
  | '>' => some "&gt;".toList
  | c => if c = nonBreakingSpace then some "&nbsp;".toList else none

def escapeChar (c : Char) : List Char := (entity c).getD [c]

def escape (s : List Char) : List Char := s.flatMap escapeChar

section Writing

variable (P : Policy)

mutual

/-- A node as it is written. -/
def written : Node → List Char
  | .text s => escape s
  | .comment _ => []
  | .element name attributes children =>
    if P.dropped name then []
    else if P.allowed name then
      '<' :: P.startTag name attributes ++ writtenAll children ++ P.endTag name
    else writtenAll children

def writtenAll : List Node → List Char
  | [] => []
  | node :: nodes => written node ++ writtenAll nodes

end

mutual

/-- The text of a node up to the first element that is kept, and whether there is one. -/
def lead : Node → List Char × Bool
  | .text s => (s, false)
  | .comment _ => ([], false)
  | .element name _ children =>
    if P.dropped name then ([], false)
    else if P.allowed name then ([], true)
    else leadAll children

def leadAll : List Node → List Char × Bool
  | [] => ([], false)
  | node :: nodes =>
    if (lead node).2 then lead node
    else ((lead node).1 ++ (leadAll nodes).1, (leadAll nodes).2)

end

/-- The text is written in front of the first element. -/
def Leads (front : List Char × Bool) (out : List Char) : Prop :=
  ∃ rest, out = escape front.1 ++ rest ∧
    if front.2 then ∃ tag, rest = '<' :: tag else rest = []

theorem Leads.append {front next : List Char × Bool} {out out' : List Char} (h : Leads front out)
    (hnext : Leads next out') :
    Leads (if front.2 then front else (front.1 ++ next.1, next.2)) (out ++ out') := by
  obtain ⟨rest, hout, hrest⟩ := h
  cases hstop : front.2 with
  | true =>
    rw [hstop, if_pos rfl] at hrest
    obtain ⟨tag, rfl⟩ := hrest
    refine ⟨'<' :: (tag ++ out'), ?_, ?_⟩
    · rw [if_pos rfl, hout, List.append_assoc, List.cons_append]
    · rw [if_pos rfl, hstop, if_pos rfl]
      exact ⟨tag ++ out', rfl⟩
  | false =>
    rw [hstop] at hrest
    obtain rfl : rest = [] := hrest
    obtain ⟨rest', hout', hrest'⟩ := hnext
    refine ⟨rest', ?_, hrest'⟩
    rw [hout, hout', List.append_nil]
    simp only [Bool.false_eq_true, if_false, escape, List.flatMap_append, List.append_assoc]

mutual

theorem leads_written : (node : Node) → Leads (lead P node) (written P node)
  | .text s => by
    rw [lead, written]
    exact ⟨[], (List.append_nil _).symm, rfl⟩
  | .comment _ => by
    rw [lead, written]
    exact ⟨[], rfl, rfl⟩
  | .element name attributes children => by
    rw [lead, written]
    split
    · exact ⟨[], rfl, rfl⟩
    split
    · exact ⟨_, rfl, _, rfl⟩
    · exact leads_writtenAll children

theorem leads_writtenAll : (nodes : List Node) → Leads (leadAll P nodes) (writtenAll P nodes)
  | [] => by
    rw [leadAll, writtenAll]
    exact ⟨[], rfl, rfl⟩
  | node :: nodes => by
    rw [leadAll, writtenAll]
    exact (leads_written node).append (leads_writtenAll nodes)

end

end Writing

/-- A character that no entity begins with and that no entity stands for. -/
def Plain (c : Char) : Prop := asciiLower c ∉ ['&', '<', '>', nonBreakingSpace]

instance (c : Char) : Decidable (Plain c) := inferInstanceAs (Decidable (¬_))

theorem entity_eq_some {c : Char} {l : List Char} (h : entity c = some l) :
    asciiLower c ∈ ['&', '<', '>', nonBreakingSpace] ∧ ∃ l', l = '&' :: l' := by
  unfold entity at h
  split at h
  · exact ⟨by decide, _, (Option.some.inj h).symm⟩
  · exact ⟨by decide, _, (Option.some.inj h).symm⟩
  · exact ⟨by decide, _, (Option.some.inj h).symm⟩
  · split at h
    · rename_i hc
      rw [hc]
      exact ⟨by decide, _, (Option.some.inj h).symm⟩
    · cases h

/-- A plain character begins neither an entity nor a tag, nor is it one that is escaped. -/
theorem Plain.differs {p c : Char} (h : Plain p)
    (hc : asciiLower c ∈ ['&', '<', '>', nonBreakingSpace]) :
    (asciiLower p == asciiLower c) = false := by
  apply beq_false_of_ne
  intro heq
  rw [← heq] at hc
  exact h hc

/-- Written text begins with a plain text where the text does. -/
theorem startsCaseless_escape {head s rest : List Char} (hplain : ∀ c ∈ head, Plain c)
    (hrest : rest = [] ∨ ∃ tag, rest = '<' :: tag) :
    startsCaseless head (escape s ++ rest) = startsCaseless head s := by
  induction head generalizing s with
  | nil => rfl
  | cons p ps ih =>
    have hp := hplain p List.mem_cons_self
    cases s with
    | nil =>
      rcases hrest with rfl | ⟨tag, rfl⟩
      · rfl
      · change (asciiLower p == asciiLower '<' && startsCaseless ps tag) = false
        rw [hp.differs (by decide)]
        rfl
    | cons c cs =>
      cases hc : entity c with
      | none =>
        have hone : escape (c :: cs) ++ rest = c :: (escape cs ++ rest) := by
          simp [escape, escapeChar, hc]
        rw [hone, startsCaseless, startsCaseless, ih fun d hd => hplain d (List.mem_cons_of_mem p hd)]
      | some l =>
        obtain ⟨hspecial, l', rfl⟩ := entity_eq_some hc
        have hesc : escape (c :: cs) ++ rest = '&' :: (l' ++ (escape cs ++ rest)) := by
          simp [escape, escapeChar, hc]
        rw [hesc, startsCaseless, startsCaseless, hp.differs hspecial, hp.differs (by decide)]
        rfl

theorem startsCaseless_writtenAll (P : Policy) {head : List Char} (hplain : ∀ c ∈ head, Plain c)
    (nodes : List Node) :
    startsCaseless head (writtenAll P nodes) = startsCaseless head (leadAll P nodes).1 := by
  obtain ⟨rest, hout, hrest⟩ := leads_writtenAll P nodes
  rw [hout]
  apply startsCaseless_escape hplain
  split at hrest
  · exact .inr hrest
  · exact .inl hrest

end Lib
