import Yuance.Resources.Html

/-!
# Yuance.Resources.Sections

`normalize_resource_sections` on the events that the XML reader gives: every heading gets a section
id, its own where it is valid and not used before it, and else one that is drawn.

* `normalizeEvents`: the loop, with the source the ids are drawn from.
* `drawSectionId`: the loop that draws from a stream of candidates, with fuel; it does not run out
  where the stream supplies a candidate that is not taken (`Supplies`), as distinct ones do.
* `writeSections_eq`: the text of `Yuance.Resources.Html` is the text of these events.
* `sections_are_unique_and_stable`: the ids are distinct and stay where they were, and nothing else
  moves.
-/

namespace Yuance
namespace Resources

open Lib

/-- The text of an element behind its bracket. -/
def rawTag (name : String) (attributes : List (String × String)) : String :=
  name ++ String.join (attributes.map fun a => " " ++ a.1 ++ "=\"" ++ a.2 ++ "\"")

def XmlEvent.text : XmlEvent → String
  | .start _ _ raw => "<" ++ raw ++ ">"
  | .other raw => raw

/-- The attributes but for the section id. -/
def otherAttributes (attributes : List (String × String)) : List (String × String) :=
  attributes.filter (·.1 != sectionAttribute)

/-- The heading with the section id behind its other attributes. -/
def withSection (name : String) (attributes : List (String × String)) (id : String) : XmlEvent :=
  .start name (otherAttributes attributes ++ [(sectionAttribute, id)])
    (rawTag name (otherAttributes attributes ++ [(sectionAttribute, id)]))

section Loop

variable {σ : Type} (draw : List String → σ → String × σ)

/-- The section id of a heading, and the source behind it. -/
def sectionId (reserved used : List String) (source : σ) (attributes : List (String × String)) :
    String × σ :=
  match (attributes.find? (·.1 == sectionAttribute)).map (·.2) with
  | some id =>
    if validResourceSectionId id && !used.contains id then (id, source)
    else draw (used ++ reserved) source
  | none => draw (used ++ reserved) source

def normalizeEventsFrom (reserved : List String) : List String → σ → List XmlEvent → List XmlEvent
  | _, _, [] => []
  | used, source, .other raw :: rest =>
    .other raw :: normalizeEventsFrom reserved used source rest
  | used, source, .start name attributes raw :: rest =>
    if isHeading name then
      let drawn := sectionId draw reserved used source attributes
      withSection name attributes drawn.1 ::
        normalizeEventsFrom reserved (drawn.1 :: used) drawn.2 rest
    else .start name attributes raw :: normalizeEventsFrom reserved used source rest

def normalizeEvents (source : σ) (events : List XmlEvent) : List XmlEvent :=
  normalizeEventsFrom draw (reservedSections events) [] source events

end Loop

theorem join_cons (s : String) (l : List String) : String.join (s :: l) = s ++ String.join l := by
  rw [← String.toList_inj, String.toList_append, String.toList_join, String.toList_join]
  rfl

/-- The text of `Html` is the text of these events. -/
theorem writeSections_eq (M : Markup) (reserved used : List String) (events : List XmlEvent) :
    writeSections M reserved used events =
      String.join ((normalizeEventsFrom (fun taken (_ : Unit) => (M.freshSectionId taken, ()))
        reserved used () events).map XmlEvent.text) := by
  induction events generalizing used with
  | nil => rfl
  | cons e rest ih =>
    cases e with
    | other raw =>
      rw [writeSections, normalizeEventsFrom, List.map_cons, join_cons, ih]
      rfl
    | start name attributes raw =>
      have hid : (sectionId (fun taken (_ : Unit) => (M.freshSectionId taken, ())) reserved used ()
          attributes).1 = sectionIdOf M reserved used attributes := by
        unfold sectionId sectionIdOf
        cases (attributes.find? (·.1 == sectionAttribute)).map (·.2) with
        | none => rfl
        | some id => exact apply_ite Prod.fst _ _ _
      unfold writeSections normalizeEventsFrom
      split
      · dsimp only
        rw [List.map_cons, join_cons, ih, hid]
        rfl
      · rw [List.map_cons, join_cons, ih]
        rfl

/-! ## Drawing an id -/

/-- A text as `Uuid::to_string` writes it. -/
abbrev UuidText := { s : String // isUuid s = true }

def sectionOf (candidate : UuidText) : String := "yuance-section-" ++ candidate.val

/-- The `while` loop that draws candidates from the `i`-th on until one is not taken. -/
def drawFrom (candidates : Nat → UuidText) (taken : List String) : Nat → Nat → String × Nat
  | 0, i => (sectionOf (candidates i), i + 1)
  | fuel + 1, i =>
    if taken.contains (sectionOf (candidates i)) then drawFrom candidates taken fuel (i + 1)
    else (sectionOf (candidates i), i + 1)

def drawSectionId (candidates : Nat → UuidText) (fuel : Nat) (taken : List String) (i : Nat) :
    String × Nat :=
  drawFrom candidates taken fuel i

/-- From every place of the stream, one of the next `fuel + 1` candidates is not among the taken
ones, where these are at most `n`. -/
def Supplies (n fuel : Nat) (candidates : Nat → UuidText) : Prop :=
  ∀ taken : List String, taken.length ≤ n →
    ∀ i, ∃ j ≤ fuel, sectionOf (candidates (i + j)) ∉ taken

/-- No candidate comes again within `n` draws. -/
def Distinct (n : Nat) (candidates : Nat → UuidText) : Prop :=
  ∀ i j, i < j → j ≤ i + n → candidates i ≠ candidates j

/-- Drawn ids are valid, and not among the taken ones where these are at most `n`. -/
structure Draws {σ : Type} (n : Nat) (draw : List String → σ → String × σ) : Prop where
  valid : ∀ taken source, validResourceSectionId (draw taken source).1 = true
  fresh : ∀ taken source, taken.length ≤ n → (draw taken source).1 ∉ taken

section Draw

variable {candidates : Nat → UuidText} {taken : List String} {n fuel i : Nat}

theorem matchClasses_length {ps : List (Char → Bool)} {l : List Char}
    (h : matchClasses ps l = true) : l.length = ps.length := by
  induction ps generalizing l with
  | nil =>
    cases l with
    | nil => rfl
    | cons c l => cases h
  | cons p ps ih =>
    cases l with
    | nil => cases h
    | cons c l =>
      unfold matchClasses at h
      rw [Bool.and_eq_true] at h
      rw [List.length_cons, List.length_cons, ih h.2]

/-- A text that matches classes of letters consists of such letters. -/
theorem matchClasses_all {q : Char → Bool} {ps : List (Char → Bool)} {l : List Char}
    (hps : ∀ p ∈ ps, ∀ c, p c = true → q c = true) (h : matchClasses ps l = true) :
    l.all q = true := by
  induction ps generalizing l with
  | nil =>
    cases l with
    | nil => rfl
    | cons c l => cases h
  | cons p ps ih =>
    cases l with
    | nil => cases h
    | cons c l =>
      unfold matchClasses at h
      rw [Bool.and_eq_true] at h
      rw [List.all_cons, Bool.and_eq_true]
      exact ⟨hps p List.mem_cons_self c h.1,
        ih (fun p' hp' => hps p' (List.mem_cons_of_mem p hp')) h.2⟩

theorem isSectionChar_of_hex {c : Char} (h : isHexIgnoreCase c = true) :
    isSectionChar c = true := by
  have halnum : c.isAlphanum = true := by
    unfold isHexIgnoreCase at h
    rw [Bool.or_eq_true, Bool.or_eq_true, Bool.and_eq_true, Bool.and_eq_true] at h
    unfold Char.isAlphanum Char.isAlpha Char.isUpper Char.isLower
    rcases h with (hdigit | hlower) | hupper
    · rw [hdigit, Bool.or_true]
    · have hlow : 97 ≤ c.toNat := of_decide_eq_true hlower.1
      have hhigh : c.toNat ≤ 102 := of_decide_eq_true hlower.2
      simp [UInt32.le_iff_toNat_le]
      omega
    · have hlow : 65 ≤ c.toNat := of_decide_eq_true hupper.1
      have hhigh : c.toNat ≤ 70 := of_decide_eq_true hupper.2
      simp [UInt32.le_iff_toNat_le]
      omega
  unfold isSectionChar
  rw [halnum]
  rfl

/-- The letters that a UUID may have. -/
theorem uuidPattern_sectionChar : ∀ p ∈ uuidPattern, ∀ c, p c = true → isSectionChar c = true := by
  have hhyphen : ∀ c : Char, (c == '-') = true → isSectionChar c = true := by
    intro c hc
    rw [eq_of_beq hc]
    rfl
  have hversion : ∀ c : Char, ('1' ≤ c && c ≤ '5') = true → isSectionChar c = true := by
    intro c hc
    rw [Bool.and_eq_true] at hc
    have hlow : 49 ≤ c.toNat := of_decide_eq_true hc.1
    have hhigh : c.toNat ≤ 53 := of_decide_eq_true hc.2
    have hdigit : c.isDigit = true := by
      unfold Char.isDigit
      simp [UInt32.le_iff_toNat_le]
      omega
    exact isSectionChar_of_hex (by unfold isHexIgnoreCase; rw [hdigit]; rfl)
  have hvariant : ∀ c : Char, ['8', '9', 'a', 'b', 'A', 'B'].contains c = true →
      isSectionChar c = true := by
    intro c hc
    simp at hc
    rcases hc with rfl | rfl | rfl | rfl | rfl | rfl <;> rfl
  intro p hp
  unfold uuidPattern at hp
  simp only [List.mem_append, List.mem_replicate, List.mem_cons, List.not_mem_nil,
    or_false] at hp
  intro c hc
  rcases hp with
    (((((((⟨_, rfl⟩ | rfl) | ⟨_, rfl⟩) | rfl | rfl) | ⟨_, rfl⟩) | rfl | rfl) | ⟨_, rfl⟩) | rfl) |
      ⟨_, rfl⟩
  · exact isSectionChar_of_hex hc
  · exact hhyphen c hc
  · exact isSectionChar_of_hex hc
  · exact hhyphen c hc
  · exact hversion c hc
  · exact isSectionChar_of_hex hc
  · exact hhyphen c hc
  · exact hvariant c hc
  · exact isSectionChar_of_hex hc
  · exact hhyphen c hc
  · exact isSectionChar_of_hex hc

theorem utf8Size_of_sectionChar {c : Char} (h : isSectionChar c = true) : c.utf8Size = 1 := by
  refine Char.utf8Size_eq_one_iff.mpr ?_
  unfold isSectionChar Char.isAlphanum Char.isAlpha Char.isUpper Char.isLower Char.isDigit at h
  simp [UInt32.le_iff_toNat_le] at h
  rw [UInt32.le_iff_toNat_le]
  rcases h with ((((h | h) | h) | rfl) | rfl)
  · exact le_trans h.2 (by decide)
  · exact le_trans h.2 (by decide)
  · exact le_trans h.2 (by decide)
  · decide
  · decide

/-- The letters of a section id are one byte each. -/
theorem byteLen_of_sectionChars {s : String} (h : s.toList.all isSectionChar = true) :
    byteLen s = s.toList.length := by
  unfold byteLen utf8
  rw [List.length_flatMap, List.map_congr_left (g := fun _ => 1)]
  · simp
  · intro c hc
    rw [String.length_utf8EncodeChar]
    exact utf8Size_of_sectionChar (List.all_eq_true.mp h c hc)

theorem stripHead_append (head s : String) : stripHead head (head ++ s) = some s := by
  unfold stripHead
  rw [String.toList_append, if_pos (List.isPrefixOf_iff_prefix.mpr ⟨_, rfl⟩), List.drop_left,
    String.ofList_toList]

theorem validResourceSectionId_sectionOf (candidate : UuidText) :
    validResourceSectionId (sectionOf candidate) = true := by
  have hall := matchClasses_all uuidPattern_sectionChar candidate.property
  have hlength := matchClasses_length candidate.property
  have hbytes : byteLen candidate.val = 36 := (byteLen_of_sectionChars hall).trans hlength
  have hne : candidate.val ≠ "" := by
    intro hempty
    rw [hempty] at hbytes
    cases hbytes
  unfold validResourceSectionId sectionOf
  rw [stripHead_append]
  dsimp only
  rw [hall, hbytes, decide_eq_true hne]
  rfl

theorem sectionOf_inj {a b : UuidText} (h : sectionOf a = sectionOf b) : a = b := by
  unfold sectionOf at h
  rw [← String.toList_inj, String.toList_append, String.toList_append] at h
  exact Subtype.ext (String.toList_inj.mp (List.append_cancel_left h))

/-- Where the drawn id is taken, so is every candidate before it. -/
theorem taken_of_drawFrom (h : (drawFrom candidates taken fuel i).1 ∈ taken) :
    ∀ j ≤ fuel, sectionOf (candidates (i + j)) ∈ taken := by
  induction fuel generalizing i with
  | zero =>
    intro j hj
    obtain rfl := Nat.le_zero.mp hj
    exact h
  | succ fuel ih =>
    unfold drawFrom at h
    split at h
    · rename_i htaken
      intro j hj
      cases j with
      | zero => exact List.contains_iff_mem.mp htaken
      | succ j =>
        have hnext := ih h j (by omega)
        rw [Nat.add_assoc, Nat.add_comm 1 j] at hnext
        exact hnext
    · rename_i hfree
      exact absurd (List.contains_iff_mem.mpr h) hfree

theorem drawFrom_valid : validResourceSectionId (drawFrom candidates taken fuel i).1 = true := by
  induction fuel generalizing i with
  | zero => exact validResourceSectionId_sectionOf _
  | succ fuel ih =>
    unfold drawFrom
    split
    · exact ih
    · exact validResourceSectionId_sectionOf _

theorem Supplies.draws (h : Supplies n fuel candidates) :
    Draws n (drawSectionId candidates fuel) where
  valid _ _ := drawFrom_valid
  fresh taken i hlength htaken := by
    obtain ⟨j, hj, hfree⟩ := h taken hlength i
    exact hfree (taken_of_drawFrom htaken j hj)

/-- Distinct candidates do not run out. -/
theorem Distinct.supplies (h : Distinct n candidates) : Supplies n n candidates := by
  intro taken hlength i
  refine Classical.byContradiction fun hnone => ?_
  have htaken : ∀ j ≤ n, sectionOf (candidates (i + j)) ∈ taken := by
    intro j hj
    refine Classical.byContradiction fun hfree => ?_
    exact hnone ⟨j, hj, hfree⟩
  have hnodup : ((List.range (n + 1)).map fun j => sectionOf (candidates (i + j))).Nodup := by
    refine List.Nodup.map_on ?_ List.nodup_range
    intro a ha b hb hab
    have ha := List.mem_range.mp ha
    have hb := List.mem_range.mp hb
    have heq := sectionOf_inj hab
    rcases Nat.lt_trichotomy a b with hlt | rfl | hlt
    · exact absurd heq (h _ _ (by omega) (by omega))
    · rfl
    · exact absurd heq.symm (h _ _ (by omega) (by omega))
  have hsub : ((List.range (n + 1)).map fun j => sectionOf (candidates (i + j))) ⊆ taken := by
    intro id hid
    obtain ⟨j, hj, rfl⟩ := List.mem_map.mp hid
    exact htaken j (Nat.lt_succ_iff.mp (List.mem_range.mp hj))
  have hle := (hnodup.subperm hsub).length_le
  rw [List.length_map, List.length_range] at hle
  omega

end Draw

/-! ## What the loop keeps -/

/-- The section ids of a heading. -/
def XmlEvent.sectionIds : XmlEvent → List String
  | .start name attributes _ =>
    if isHeading name then (attributes.filter (·.1 == sectionAttribute)).map (·.2) else []
  | .other _ => []

def XmlEvent.isSection : XmlEvent → Bool
  | .start name _ _ => isHeading name
  | .other _ => false

/-- What of an event is not a section id: for a heading its name and its other attributes. -/
def XmlEvent.bare : XmlEvent → XmlEvent
  | .start name attributes raw =>
    if isHeading name then .start name (otherAttributes attributes) ""
    else .start name attributes raw
  | .other raw => .other raw

def XmlEvent.keys : XmlEvent → List String
  | .start _ attributes _ => attributes.map (·.1)
  | .other _ => []

section Keep

variable {σ : Type} {draw : List String → σ → String × σ} {reserved used : List String} {source : σ}
  {events : List XmlEvent} {name id : String} {attributes : List (String × String)} {n : Nat}

theorem otherAttributes_append :
    otherAttributes (otherAttributes attributes ++ [(sectionAttribute, id)]) =
      otherAttributes attributes := by
  unfold otherAttributes
  rw [List.filter_append, List.filter_filter]
  simp

theorem filter_section_otherAttributes :
    (otherAttributes attributes ++ [(sectionAttribute, id)]).filter (·.1 == sectionAttribute) =
      [(sectionAttribute, id)] := by
  unfold otherAttributes
  rw [List.filter_append, List.filter_filter]
  simp

theorem mem_sectionIds {raw : String} (hname : isHeading name = true) :
    id ∈ (XmlEvent.start name attributes raw).sectionIds ↔ (sectionAttribute, id) ∈ attributes := by
  unfold XmlEvent.sectionIds
  dsimp only
  rw [if_pos hname, List.mem_map]
  constructor
  · rintro ⟨a, ha, rfl⟩
    obtain ⟨hmem, hkey⟩ := List.mem_filter.mp ha
    rw [← eq_of_beq hkey]
    exact hmem
  · intro hmem
    exact ⟨_, List.mem_filter.mpr ⟨hmem, beq_self_eq_true _⟩, rfl⟩

theorem withSection_bare (hname : isHeading name = true) :
    (withSection name attributes id).bare = .start name (otherAttributes attributes) "" := by
  unfold withSection XmlEvent.bare
  dsimp only
  rw [if_pos hname, otherAttributes_append]

theorem withSection_sectionIds (hname : isHeading name = true) :
    (withSection name attributes id).sectionIds = [id] := by
  unfold withSection XmlEvent.sectionIds
  dsimp only
  rw [if_pos hname, filter_section_otherAttributes]
  rfl

theorem normalizeEventsFrom_bare :
    (normalizeEventsFrom draw reserved used source events).map XmlEvent.bare =
      events.map XmlEvent.bare := by
  induction events generalizing used source with
  | nil => rfl
  | cons e rest ih =>
    cases e with
    | other raw =>
      rw [normalizeEventsFrom, List.map_cons, List.map_cons, ih]
    | start name attributes raw =>
      unfold normalizeEventsFrom
      by_cases hname : isHeading name = true
      · rw [if_pos hname, List.map_cons, List.map_cons, ih, withSection_bare hname]
        exact congrArg (· :: _) (if_pos hname).symm
      · rw [if_neg hname, List.map_cons, List.map_cons, ih]

/-- An id is a valid one of the heading that was not used, or drawn. -/
theorem sectionId_cases (hd : Draws n draw) (hroom : used.length + reserved.length ≤ n) :
    let id := (sectionId draw reserved used source attributes).1
    validResourceSectionId id = true ∧ id ∉ used ∧
      (id ∈ reserved → (sectionAttribute, id) ∈ attributes) := by
  have hdrawn := hd.fresh (used ++ reserved) source (by rw [List.length_append]; exact hroom)
  have hvalid := hd.valid (used ++ reserved) source
  rw [List.mem_append, not_or] at hdrawn
  unfold sectionId
  dsimp only
  split
  · rename_i id hid
    split
    · rename_i hfree
      rw [Bool.and_eq_true, Bool.not_eq_true', ← Bool.not_eq_true, List.contains_iff_mem] at hfree
      obtain ⟨a, ha, rfl⟩ := Option.map_eq_some_iff.mp hid
      refine ⟨hfree.1, hfree.2, fun _ => ?_⟩
      have hkey : a.1 = sectionAttribute := by simpa using List.find?_some ha
      have hmem := List.mem_of_find?_eq_some ha
      rw [← hkey]
      exact hmem
    · exact ⟨hvalid, hdrawn.1, fun hin => absurd hin hdrawn.2⟩
  · exact ⟨hvalid, hdrawn.1, fun hin => absurd hin hdrawn.2⟩

theorem sectionId_own
    (hfind : attributes.find? (·.1 == sectionAttribute) = some (sectionAttribute, id))
    (hvalid : validResourceSectionId id = true) (hused : id ∉ used) :
    sectionId draw reserved used source attributes = (id, source) := by
  have hfree : (validResourceSectionId id && !used.contains id) = true := by
    rw [hvalid, Bool.true_and, Bool.not_eq_true', ← Bool.not_eq_true, List.contains_iff_mem]
    exact hused
  unfold sectionId
  rw [hfind]
  exact if_pos hfree

theorem find?_section_otherAttributes :
    (otherAttributes attributes ++ [(sectionAttribute, id)]).find? (·.1 == sectionAttribute) =
      some (sectionAttribute, id) := by
  have hnone : (otherAttributes attributes).find? (·.1 == sectionAttribute) = none := by
    refine List.find?_eq_none.mpr fun a ha heq => ?_
    have hother := (List.mem_filter.mp ha).2
    rw [bne, heq] at hother
    cases hother
  rw [List.find?_append, hnone]
  rfl

/-- The headings of a text. -/
def headings (events : List XmlEvent) : Nat := events.countP XmlEvent.isSection

theorem headings_cons_start {raw : String} {rest : List XmlEvent} (hname : isHeading name = true) :
    headings (.start name attributes raw :: rest) = headings rest + 1 :=
  List.countP_cons_of_pos hname

theorem normalizeEventsFrom_section (hd : Draws n draw)
    (hroom : used.length + reserved.length + headings events ≤ n) :
    ∀ e ∈ normalizeEventsFrom draw reserved used source events, e.isSection = true →
      ∃ name attributes id, e = withSection name attributes id ∧
        validResourceSectionId id = true := by
  induction events generalizing used source with
  | nil =>
    intro e he
    cases he
  | cons first rest ih =>
    cases first with
    | other raw =>
      intro e he hsection
      rcases List.mem_cons.mp he with rfl | hlater
      · cases hsection
      · exact ih hroom e hlater hsection
    | start name attributes raw =>
      unfold normalizeEventsFrom
      by_cases hname : isHeading name = true
      · rw [if_pos hname]
        rw [headings_cons_start hname] at hroom
        intro e he hsection
        rcases List.mem_cons.mp he with rfl | hlater
        · exact ⟨name, attributes, _, rfl, (sectionId_cases hd (by omega)).1⟩
        · exact ih (by rw [List.length_cons]; omega) e hlater hsection
      · rw [if_neg hname]
        have hrest : headings (.start name attributes raw :: rest) = headings rest :=
          List.countP_cons_of_neg hname
        rw [hrest] at hroom
        intro e he hsection
        rcases List.mem_cons.mp he with rfl | hlater
        · exact absurd hsection hname
        · exact ih hroom e hlater hsection

/-- The ids behind the used ones are new and distinct. -/
theorem normalizeEventsFrom_ids (hd : Draws n draw)
    (hroom : used.length + reserved.length + headings events ≤ n) :
    ((normalizeEventsFrom draw reserved used source events).flatMap XmlEvent.sectionIds).Nodup ∧
      ∀ id ∈ (normalizeEventsFrom draw reserved used source events).flatMap XmlEvent.sectionIds,
        id ∉ used := by
  induction events generalizing used source with
  | nil =>
    refine ⟨List.nodup_nil, ?_⟩
    intro id hid
    cases hid
  | cons first rest ih =>
    cases first with
    | other raw => exact ih hroom
    | start name attributes raw =>
      unfold normalizeEventsFrom
      by_cases hname : isHeading name = true
      · rw [if_pos hname]
        rw [headings_cons_start hname] at hroom
        obtain ⟨_, hnew, _⟩ := @sectionId_cases _ draw reserved used source attributes n hd
          (by omega)
        obtain ⟨drawn, hdrawn⟩ : ∃ drawn, sectionId draw reserved used source attributes = drawn :=
          ⟨_, rfl⟩
        rw [hdrawn] at hnew ⊢
        have hlength : (drawn.1 :: used).length = used.length + 1 := rfl
        obtain ⟨hnodup, hlater⟩ := @ih (drawn.1 :: used) drawn.2 (by omega)
        dsimp only
        rw [List.flatMap_cons, withSection_sectionIds hname, List.singleton_append]
        refine ⟨List.nodup_cons.mpr ⟨?_, hnodup⟩, ?_⟩
        · intro hin
          exact hlater _ hin List.mem_cons_self
        · intro id hid
          rcases List.mem_cons.mp hid with rfl | hin
          · exact hnew
          · intro hused
            exact hlater id hin (List.mem_cons_of_mem _ hused)
      · rw [if_neg hname]
        have hrest : headings (.start name attributes raw :: rest) = headings rest :=
          List.countP_cons_of_neg hname
        have hids : (XmlEvent.start name attributes raw).sectionIds = [] := if_neg hname
        rw [hrest] at hroom
        rw [List.flatMap_cons, hids, List.nil_append]
        exact ih hroom

/-- A valid id stays on the first heading that has it. By induction on what comes before. -/
theorem normalizeEventsFrom_stays (hd : Draws n draw) {before after : List XmlEvent} {raw : String}
    (hroom : used.length + reserved.length +
      headings (before ++ .start name attributes raw :: after) ≤ n)
    (hname : isHeading name = true) (hkeys : (attributes.map (·.1)).Nodup)
    (hid : (sectionAttribute, id) ∈ attributes) (hvalid : validResourceSectionId id = true)
    (hfirst : ∀ e ∈ before, id ∉ e.sectionIds) (hreserved : id ∈ reserved) (hused : id ∉ used) :
    (normalizeEventsFrom draw reserved used source
      (before ++ .start name attributes raw :: after))[before.length]? =
        some (withSection name attributes id) := by
  induction before generalizing used source with
  | nil =>
    have hfind : attributes.find? (·.1 == sectionAttribute) = some (sectionAttribute, id) :=
      find?_of_mem hkeys hid
    rw [List.nil_append, normalizeEventsFrom, if_pos hname, sectionId_own hfind hvalid hused]
    rfl
  | cons first before ih =>
    have hlater : ∀ e ∈ before, id ∉ e.sectionIds := fun e he =>
      hfirst e (List.mem_cons_of_mem first he)
    rw [List.cons_append] at hroom ⊢
    cases first with
    | other raw' => exact ih hroom hlater hused
    | start name' attributes' raw' =>
      unfold normalizeEventsFrom
      by_cases hname' : isHeading name' = true
      · rw [if_pos hname']
        rw [headings_cons_start hname'] at hroom
        obtain ⟨_, _, hown⟩ := @sectionId_cases _ draw reserved used source attributes' n hd
          (by omega)
        obtain ⟨drawn, hdrawn⟩ : ∃ drawn, sectionId draw reserved used source attributes' = drawn :=
          ⟨_, rfl⟩
        rw [hdrawn] at hown ⊢
        -- the heading has another id: this one is reserved, and no id of its own
        have hother : id ∉ drawn.1 :: used := by
          intro hin
          rcases List.mem_cons.mp hin with rfl | hin
          · refine hfirst _ List.mem_cons_self ?_
            exact (mem_sectionIds hname').mpr (hown hreserved)
          · exact hused hin
        have hlength : (drawn.1 :: used).length = used.length + 1 := rfl
        exact ih (by omega) hlater hother
      · rw [if_neg hname']
        have hrest : headings (.start name' attributes' raw' ::
            (before ++ .start name attributes raw :: after)) =
              headings (before ++ .start name attributes raw :: after) :=
          List.countP_cons_of_neg hname'
        rw [hrest] at hroom
        exact ih hroom hlater hused

/-- A text whose headings have valid and distinct ids behind their other attributes stays. -/
theorem normalizeEventsFrom_fixed
    (hsections : ∀ e ∈ events, e.isSection = true →
      ∃ name attributes id, e = withSection name attributes id ∧ validResourceSectionId id = true)
    (hnodup : (events.flatMap XmlEvent.sectionIds).Nodup)
    (hused : ∀ id ∈ events.flatMap XmlEvent.sectionIds, id ∉ used) :
    normalizeEventsFrom draw reserved used source events = events := by
  induction events generalizing used source with
  | nil => rfl
  | cons first rest ih =>
    have hrest : ∀ e ∈ rest, e.isSection = true →
        ∃ name attributes id, e = withSection name attributes id ∧
          validResourceSectionId id = true := fun e he =>
      hsections e (List.mem_cons_of_mem first he)
    rw [List.flatMap_cons] at hnodup hused
    have hlater : ∀ id ∈ rest.flatMap XmlEvent.sectionIds, id ∉ used := fun id hid =>
      hused id (List.mem_append_right _ hid)
    cases first with
    | other raw => rw [normalizeEventsFrom, ih hrest hnodup hlater]
    | start name attributes raw =>
      by_cases hname : isHeading name = true
      · obtain ⟨name', attributes', id, heq, hvalid⟩ := hsections _ List.mem_cons_self hname
        obtain ⟨rfl, rfl, rfl⟩ := XmlEvent.start.inj heq
        have hids : (withSection name attributes' id).sectionIds = [id] :=
          withSection_sectionIds hname
        rw [show (XmlEvent.start name _ _).sectionIds = [id] from hids] at hnodup hused
        rw [List.singleton_append, List.nodup_cons] at hnodup
        have hown : sectionId draw reserved used source
            (otherAttributes attributes' ++ [(sectionAttribute, id)]) = (id, source) :=
          sectionId_own find?_section_otherAttributes hvalid
            (hused id (List.mem_append_left _ List.mem_cons_self))
        rw [normalizeEventsFrom, if_pos hname, hown]
        dsimp only
        rw [ih hrest hnodup.2 ?_]
        · unfold withSection
          rw [otherAttributes_append]
        · intro id' hid' hin
          rcases List.mem_cons.mp hin with rfl | hin
          · exact hnodup.1 hid'
          · exact hlater id' hid' hin
      · have hids : (XmlEvent.start name attributes raw).sectionIds = [] := if_neg hname
        rw [hids, List.nil_append] at hnodup
        rw [normalizeEventsFrom, if_neg hname, ih hrest hnodup hlater]

end Keep

/-! ## The text that is saved -/

/-- Of a text whose tags have no attribute twice, as the reader gives it, every heading gets exactly
one valid section id, no two the same; a valid id stays on the first heading that has it; all else
is as before; and the result stays as it is, whatever ids are drawn. -/
theorem sections_are_unique_and_stable {candidates : Nat → UuidText} {fuel : Nat}
    {events : List XmlEvent}
    (hsupply : Supplies (headings events + (reservedSections events).length) fuel candidates)
    (hkeys : ∀ e ∈ events, e.keys.Nodup) :
    let saved := normalizeEvents (drawSectionId candidates fuel) 0 events
    (∀ e ∈ saved, e.isSection = true →
      ∃ id, e.sectionIds = [id] ∧ validResourceSectionId id = true) ∧
    (saved.flatMap XmlEvent.sectionIds).Nodup ∧
    (∀ before name attributes raw after id,
      events = before ++ .start name attributes raw :: after → isHeading name = true →
      (sectionAttribute, id) ∈ attributes → validResourceSectionId id = true →
      (∀ e ∈ before, id ∉ e.sectionIds) →
      saved[before.length]? = some (withSection name attributes id)) ∧
    saved.map XmlEvent.bare = events.map XmlEvent.bare ∧
    ∀ {σ : Type} (draw : List String → σ → String × σ) (source : σ),
      normalizeEvents draw source saved = saved := by
  have hd := hsupply.draws
  have hroom : ([] : List String).length + (reservedSections events).length + headings events ≤
      headings events + (reservedSections events).length := by
    rw [List.length_nil]
    omega
  intro saved
  have hsections := @normalizeEventsFrom_section _ _ (reservedSections events) [] 0 events _ hd
    hroom
  have hnodup := (@normalizeEventsFrom_ids _ _ (reservedSections events) [] 0 events _ hd hroom).1
  refine ⟨?_, hnodup, ?_, normalizeEventsFrom_bare, ?_⟩
  · intro e he hsection
    obtain ⟨name, attributes, id, rfl, hvalid⟩ := hsections e he hsection
    exact ⟨id, withSection_sectionIds hsection, hvalid⟩
  · intro before name attributes raw after id hevents hname hid hvalid hfirst
    have hmem : XmlEvent.start name attributes raw ∈ events := by
      rw [hevents]
      exact List.mem_append_right _ List.mem_cons_self
    have hreserved : id ∈ reservedSections events := by
      refine List.mem_flatMap.mpr ⟨_, hmem, ?_⟩
      dsimp only
      rw [if_pos hname]
      refine List.mem_map.mpr ⟨(sectionAttribute, id), List.mem_filter.mpr ⟨hid, ?_⟩, rfl⟩
      rw [hvalid, Bool.and_true]
      exact beq_self_eq_true _
    unfold saved normalizeEvents
    rw [hevents] at hroom hreserved ⊢
    exact normalizeEventsFrom_stays (hevents ▸ hd) hroom hname (hkeys _ hmem) hid hvalid hfirst
      hreserved (fun hin => nomatch hin)
  · intro σ draw source
    exact normalizeEventsFrom_fixed hsections hnodup (fun _ _ hin => nomatch hin)

def uuidOf : Nat → UuidText
  | 0 => ⟨"00000000-0000-4000-8000-000000000000", by decide⟩
  | 1 => ⟨"11111111-1111-4111-8111-111111111111", by decide⟩
  | 2 => ⟨"22222222-2222-4222-8222-222222222222", by decide⟩
  | _ => ⟨"33333333-3333-4333-8333-333333333333", by decide⟩

/-- Four ids that are drawn in turn. -/
def fourUuids (i : Nat) : UuidText := uuidOf (i % 4)

theorem fourUuids_distinct : Distinct 3 fourUuids := by
  intro i j hlt hle heq
  have hinj : ∀ a < 4, ∀ b < 4, (uuidOf a).val = (uuidOf b).val → a = b := by decide
  have hmod := hinj (i % 4) (Nat.mod_lt i (by decide)) (j % 4) (Nat.mod_lt j (by decide))
    (congrArg Subtype.val heq)
  omega

def twoHeadings : List XmlEvent :=
  [.start "h1" [] "h1", .other "text", .start "h2" [(sectionAttribute, "yuance-section-a")] "h2"]

theorem sections_are_unique_and_stable_two :
    ((normalizeEvents (drawSectionId fourUuids 3) 0 twoHeadings).flatMap
      XmlEvent.sectionIds).Nodup := by
  have hroom : headings twoHeadings + (reservedSections twoHeadings).length = 3 := by
    decide +kernel
  have hsupply : Supplies (headings twoHeadings + (reservedSections twoHeadings).length) 3
      fourUuids := by
    rw [hroom]
    exact fourUuids_distinct.supplies
  exact (sections_are_unique_and_stable hsupply (by decide)).2.1

end Resources
end Yuance
