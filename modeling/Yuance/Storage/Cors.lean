import Yuance.Lib.Search
import Yuance.Lib.Xml

/-!
# Yuance.Storage.Cors

The rule for uploads from the browser in `api/src/domains/storage.rs`, put into the settings of the
bucket. The code looks for texts; a document is what an XML reader makes of it.

* `append_direct_upload_cors_rule` and `cors_allows_direct_upload`.
* `Kept`: every rule is still there, and the upload is allowed.
* `appended_keeps_iff`: where the last closing tag that is found is not inside a rule.
-/

namespace Yuance
namespace Storage
namespace Cors

open Lib Lib.Xml

/-! ## The code -/

def ruleOpen : List Char := "<CORSRule>".toList

def ruleClose : List Char := "</CORSRule>".toList

def configurationOpen : List Char := "<CORSConfiguration>".toList

def configurationClose : List Char := "</CORSConfiguration>".toList

def field (tag value : String) : List Char :=
  '<' :: tag.toList ++ '>' :: value.toList ++ '<' :: '/' :: tag.toList ++ ['>']

/-- What stands between the tags of `OSS_DIRECT_UPLOAD_CORS_RULE`. -/
def directUploadFields : List Char :=
  field "AllowedOrigin" "*" ++ field "AllowedMethod" "PUT" ++ field "AllowedMethod" "GET" ++
    field "AllowedMethod" "HEAD" ++ field "AllowedHeader" "*" ++ field "ExposeHeader" "ETag" ++
    field "ExposeHeader" "x-oss-request-id" ++ field "MaxAgeSeconds" "3600"

/-- `OSS_DIRECT_UPLOAD_CORS_RULE`. -/
def directUploadCorsRule : List Char := ruleOpen ++ directUploadFields ++ ruleClose

def openTag (tag : String) : List Char := '<' :: tag.toList ++ ['>']

def closeTag (tag : String) : List Char := '<' :: '/' :: tag.toList ++ ['>']

/-- `xml_tag_values`. -/
def xmlTagValues (xml : List Char) (tag : String) : List (List Char) :=
  (between (openTag tag) (closeTag tag) (xml.length + 1) xml).map trimChars

/-- `contains_xml_value`. -/
def containsXmlValue (values : List (List Char)) (expected : String) : Bool :=
  values.any fun value =>
    (trimChars value).map asciiLower = expected.toList.map asciiLower

/-- What `cors_allows_direct_upload` asks of the text of a rule. -/
def ruleAllows (rule : List Char) : Bool :=
  let methods := xmlTagValues rule "AllowedMethod"
  let origins := xmlTagValues rule "AllowedOrigin"
  let headers := xmlTagValues rule "AllowedHeader"
  containsXmlValue methods "PUT" && containsXmlValue methods "GET" &&
    containsXmlValue origins "*" && containsXmlValue headers "*"

/-- `cors_allows_direct_upload`. -/
def corsAllowsDirectUpload (corsXml : List Char) : Bool :=
  (splitText ruleOpen corsXml).any fun part => ruleAllows (firstPiece ruleClose part)

def freshConfiguration : List Char :=
  configurationOpen ++ directUploadCorsRule ++ configurationClose

/-- `append_direct_upload_cors_rule`. -/
def appendDirectUploadCorsRule (corsXml : List Char) : List Char :=
  if corsAllowsDirectUpload corsXml then trimChars corsXml
  else
    let corsXml := trimChars corsXml
    if corsXml.isEmpty then freshConfiguration
    else
      match cutLast configurationClose corsXml with
      | some (before, behind) =>
        before ++ directUploadCorsRule ++ (configurationClose ++ behind)
      | none => freshConfiguration

/-! ## What the settings say -/

/-- The rules of a document. -/
def rules (corsXml : List Char) : List (List Char) := children "CORSRule".toList corsXml

/-- No rule is lost, and the upload is allowed by the one document that comes out. -/
structure Kept (corsXml next : List Char) : Prop where
  rules : (rules corsXml).Sublist (rules next)
  allowed : corsAllowsDirectUpload next = true
  wellFormed : isWellFormed next = true
  again : appendDirectUploadCorsRule next = trimChars next

/-- What stands before the last closing tag that is found ends inside a rule. -/
def closesInside (before : List Char) : Bool :=
  (run initial before).any fun s => s.inside "CORSRule".toList

theorem freshConfiguration_wellFormed : isWellFormed freshConfiguration = true := by
  decide +kernel

theorem rules_fresh : rules freshConfiguration = [directUploadCorsRule] := by
  decide +kernel

theorem ruleAllows_fields : ruleAllows directUploadFields = true := by
  decide +kernel

/-! ## What the rule allows -/

theorem allows_of_rule {corsXml : List Char} (h : directUploadCorsRule <:+: corsXml) :
    corsAllowsDirectUpload corsXml = true := by
  obtain ⟨before, behind, rfl⟩ := h
  have hform : before ++ directUploadCorsRule ++ behind
      = before ++ ruleOpen ++ (directUploadFields ++ ruleClose ++ behind) := by
    unfold directUploadCorsRule
    simp only [List.append_assoc]
  have hm : '<' ∉ "CORSRule>".toList := by decide
  have hpiece : firstPiece ruleOpen (directUploadFields ++ ruleClose ++ behind)
      ∈ splitText ruleOpen (before ++ ruleOpen ++ (directUploadFields ++ ruleClose ++ behind)) :=
    mem_pieces hm before _ (Nat.le_refl _)
  have hskip : skips ruleOpen (directUploadFields ++ ruleClose) = true := by decide +kernel
  have hfields : skips ruleClose directUploadFields = true := by decide +kernel
  rw [firstPiece_skip behind hskip] at hpiece
  unfold corsAllowsDirectUpload
  rw [hform, List.any_eq_true]
  refine ⟨_, hpiece, ?_⟩
  have hrule : firstPiece ruleClose
      (directUploadFields ++ ruleClose ++ firstPiece ruleOpen behind) = directUploadFields := by
    have hclose : ruleClose ≠ [] := by decide
    rw [List.append_assoc, firstPiece_skip _ hfields, firstPiece_self hclose, List.append_nil]
  rw [hrule]
  exact ruleAllows_fields

/-! ## White space around the text -/

/-- White space stands in none of the tags. -/
theorem foreign_of_space {marker around : List Char} (hmarker : marker.all (!isWhitespace ·) = true)
    (h : around.all isWhitespace = true) : Foreign marker around := by
  intro c hc hmem
  have hspace := List.all_eq_true.mp h c hc
  have hnot := List.all_eq_true.mp hmarker c hmem
  rw [hspace] at hnot
  cases hnot

theorem xmlTagValues_around {front rule back : List Char} (tag : String)
    (hopen : (openTag tag).all (!isWhitespace ·) = true)
    (hclose : (closeTag tag).all (!isWhitespace ·) = true)
    (hfront : front.all isWhitespace = true) (hback : back.all isWhitespace = true) :
    xmlTagValues (front ++ rule ++ back) tag = xmlTagValues rule tag := by
  have hne : openTag tag ≠ [] := List.cons_ne_nil _ _
  have hne' : closeTag tag ≠ [] := List.cons_ne_nil _ _
  unfold xmlTagValues
  rw [between_padded hne hne' (foreign_of_space hopen hfront) (foreign_of_space hopen hback)
    (foreign_of_space hclose hback) (Nat.lt_succ_self _) (Nat.lt_succ_self _)]

theorem ruleAllows_around {front rule back : List Char} (hfront : front.all isWhitespace = true)
    (hback : back.all isWhitespace = true) :
    ruleAllows (front ++ rule ++ back) = ruleAllows rule := by
  unfold ruleAllows
  rw [xmlTagValues_around "AllowedMethod" (by decide) (by decide) hfront
      hback,
    xmlTagValues_around "AllowedOrigin" (by decide) (by decide) hfront hback,
    xmlTagValues_around "AllowedHeader" (by decide) (by decide) hfront hback]

theorem allows_trimChars {corsXml : List Char} (h : corsAllowsDirectUpload corsXml = true) :
    corsAllowsDirectUpload (trimChars corsXml) = true := by
  obtain ⟨front, back, htext, hfront, hback⟩ := trimChars_around corsXml
  have hopen : ruleOpen.all (!isWhitespace ·) = true := by decide
  have hclose : ruleClose.all (!isWhitespace ·) = true := by decide
  generalize trimChars corsXml = text at htext ⊢
  subst htext
  unfold corsAllowsDirectUpload splitText at h ⊢
  rw [List.any_eq_true] at h ⊢
  obtain ⟨piece, hpiece, hallows⟩ := h
  obtain ⟨before, inner, behind, hinner, hbefore, hbehind, rfl⟩ :=
    pieces_padded (by decide) (foreign_of_space hopen hfront) (foreign_of_space hopen hback)
      (Nat.le_refl _) (Nat.le_refl _) hpiece
  have hspace : before.all isWhitespace = true :=
    List.all_eq_true.mpr fun c hc => List.all_eq_true.mp hfront c (hbefore hc)
  have hspace' : behind.all isWhitespace = true :=
    List.all_eq_true.mpr fun c hc => List.all_eq_true.mp hback c (hbehind hc)
  obtain ⟨rest, hrest, hfirst⟩ := @firstPiece_padded ruleClose inner before behind (by decide)
    (foreign_of_space hclose hspace) (foreign_of_space hclose hspace')
  refine ⟨inner, hinner, ?_⟩
  rw [hfirst, ruleAllows_around hspace] at hallows
  · exact hallows
  · exact List.all_eq_true.mpr fun c hc => List.all_eq_true.mp hspace' c (hrest hc)

/-! ## Where a closing tag is found -/

/-- What a text with a closing tag may be in the middle of. -/
inductive Point : Control → Prop where
  | text (brackets : Nat) (top : Name) (rest : List Name) (rooted : Bool) :
    Point ⟨.text brackets, top :: rest, rooted⟩
  | comment (dashes : Nat) (stack : List Name) (rooted : Bool) (few : ¬ 2 ≤ dashes) :
    Point ⟨.comment dashes, stack, rooted⟩
  | cdata (brackets : Nat) (stack : List Name) (rooted : Bool) :
    Point ⟨.cdata brackets, stack, rooted⟩
  | instruction (question : Bool) (stack : List Name) (rooted : Bool) :
    Point ⟨.instruction question, stack, rooted⟩

theorem point_of_closeTag {s last : Control} {rest : List Char}
    (h : run s ('<' :: '/' :: rest) = some last) : Point s := by
  obtain ⟨next, hstep, hrun⟩ := Option.bind_eq_some_iff.mp h
  obtain ⟨after, hslash, _⟩ := Option.bind_eq_some_iff.mp hrun
  obtain ⟨mode, stack, rooted⟩ := s
  have hstart : ¬ isNameStart '<' = true := by decide
  have hname : ¬ isNameChar '<' = true := by decide
  have hspace : ¬ isSpace '<' = true := by decide
  have hquestion : ¬ '<' = '?' := by decide
  cases mode with
  | start =>
    cases hstep
    cases hslash
  | text k =>
    cases stack with
    | nil =>
      cases hstep
      cases hslash
    | cons top rest => exact .text k top rest rooted
  | comment k =>
    by_cases hk : 2 ≤ k
    · unfold step at hstep
      dsimp only at hstep
      rw [if_pos hk] at hstep
      cases hstep
    · exact .comment k stack rooted hk
  | cdata k => exact .cdata k stack rooted
  | instruction question => exact .instruction question stack rooted
  | cdataOpen read =>
    have hread : "CDATA[".toList[read]? ≠ some '<' := by
      intro hsome
      exact absurd (List.mem_of_getElem? hsome) (by decide)
    unfold step at hstep
    dsimp only at hstep
    rw [if_neg hread] at hstep
    cases hstep
  | attributes kind found spaced =>
    cases kind with
    | element name =>
      cases spaced with
      | true => cases hstep
      | false => cases hstep
    | declaration =>
      cases spaced with
      | true => cases hstep
      | false => cases hstep
  | target first name =>
    unfold step at hstep
    dsimp only at hstep
    repeat' split at hstep
    all_goals cases hstep
  | attributeName kind found name =>
    unfold step at hstep
    dsimp only at hstep
    repeat' split at hstep
    all_goals contradiction
  | closeName name =>
    unfold step at hstep
    dsimp only at hstep
    repeat' split at hstep
    all_goals contradiction
  | _ => cases hstep

/-- What the rule does in the middle of a text: nothing, for what comes behind it. -/
structure Passes (s next : Control) : Prop where
  run : run s directUploadCorsRule = some next
  step : step next '<' = step s '<'
  stack : next.stack = s.stack
  atRoot : next.atRoot = s.atRoot
  ends : next.ends = s.ends
  quiet : s.inside "CORSRule".toList = true →
    isQuiet "CORSRule".toList s directUploadCorsRule = true

theorem run_of_step {s next : Control} {c : Char} (text : List Char) (h : step s c = some next) :
    run s (c :: text) = run next text := by
  rw [run, h, Option.bind_some]

theorem quiet_of_step {tag : Name} {s next : Control} {c : Char} {text : List Char}
    (h : step s c = some next) (hroot : s.atRoot = false) (hends : s.ends = none)
    (hrest : isQuiet tag next text = true) : isQuiet tag s (c :: text) = true := by
  unfold isQuiet
  rw [h]
  dsimp only
  rw [hroot, completes_of_ends hends, hrest]
  rfl

set_option maxRecDepth 20000 in
theorem rule_in_text (k : Nat) (top : Name) (rest : List Name) (rooted : Bool) :
    Passes ⟨.text k, top :: rest, rooted⟩ ⟨.text 0, top :: rest, rooted⟩ where
  run := rfl
  step := rfl
  stack := rfl
  atRoot := by
    cases rest with
    | nil => rfl
    | cons root rest => rfl
  ends := rfl
  quiet := by
    intro hinside
    cases rest with
    | nil => cases hinside
    | cons root rest => rfl

theorem atRoot_of_inert {s : Control} (h : s.mode.isInert = true) : s.atRoot = false := by
  unfold Control.atRoot
  split
  · rename_i hmode _
    rw [hmode] at h
    cases h
  · rfl

/-- The rule in a mode that it does not leave behind its first character. -/
theorem rule_in_inert {mode inner : Mode} {stack : List Name} {rooted : Bool}
    (hmode : mode.isInert = true) (hinner : inner.isInert = true)
    (hstep : step ⟨mode, stack, rooted⟩ '<' = some ⟨inner, stack, rooted⟩)
    (hstay : step ⟨inner, stack, rooted⟩ '<' = some ⟨inner, stack, rooted⟩)
    (hrule : run ⟨inner, stack, rooted⟩ directUploadCorsRule.tail = some ⟨inner, stack, rooted⟩)
    (hquiet : ∀ top root rest, stack = top :: root :: rest →
      isQuiet "CORSRule".toList ⟨inner, stack, rooted⟩ directUploadCorsRule.tail = true) :
    Passes ⟨mode, stack, rooted⟩ ⟨inner, stack, rooted⟩ where
  run := (run_of_step _ hstep).trans hrule
  step := hstay.trans hstep.symm
  stack := rfl
  atRoot := (atRoot_of_inert hinner).trans (atRoot_of_inert hmode).symm
  ends := (ends_of_inert hinner).trans (ends_of_inert hmode).symm
  quiet := by
    intro hinside
    cases stack with
    | nil => cases hinside
    | cons top below =>
      cases below with
      | nil => cases hinside
      | cons root rest =>
        exact quiet_of_step hstep (atRoot_of_inert hmode) (ends_of_inert hmode)
          (hquiet top root rest rfl)

set_option maxRecDepth 20000 in
theorem rule_passes {s : Control} (h : Point s) : ∃ next, Passes s next := by
  cases h with
  | text k top rest rooted => exact ⟨_, rule_in_text k top rest rooted⟩
  | comment k stack rooted few =>
    refine ⟨⟨.comment 0, stack, rooted⟩, rule_in_inert rfl rfl (if_neg few) rfl rfl ?_⟩
    rintro top root rest rfl
    rfl
  | cdata k stack rooted =>
    refine ⟨⟨.cdata 0, stack, rooted⟩, rule_in_inert rfl rfl rfl rfl rfl ?_⟩
    rintro top root rest rfl
    rfl
  | instruction question stack rooted =>
    have hstep : step ⟨.instruction question, stack, rooted⟩ '<'
        = some ⟨.instruction false, stack, rooted⟩ := by
      cases question <;> rfl
    refine ⟨⟨.instruction false, stack, rooted⟩, rule_in_inert rfl rfl hstep rfl rfl ?_⟩
    rintro top root rest rfl
    rfl

theorem loose_of_point {s : Control} (h : Point s) (hinside : s.inside "CORSRule".toList = false) :
    Loose "CORSRule".toList s where
  inside := hinside
  mode := by
    intro root hroot
    cases h with
    | text k top rest rooted => exact .inr rfl
    | comment k stack rooted few => exact .inl rfl
    | cdata k stack rooted => exact .inl rfl
    | instruction question stack rooted => exact .inl rfl

/-! ## The document with the rule -/

/-- What is read behind the rule is what was read before. -/
theorem record_of_passes {s next after : Control} {log : Log} (h : Passes s next) :
    record "CORSRule".toList next '<' after log = record "CORSRule".toList s '<' after log := by
  unfold record completes
  rw [h.atRoot, h.ends]

theorem collect_of_passes {s next : Control} {log : Log} (text : List Char) (h : Passes s next) :
    collect "CORSRule".toList next log ('<' :: text)
      = collect "CORSRule".toList s log ('<' :: text) := by
  unfold collect
  rw [h.step]
  cases step s '<' with
  | none => rfl
  | some after =>
    dsimp only
    rw [record_of_passes h]

/-- The text before and behind the place, and what a reader knows there. -/
structure Split (before rest : List Char) (s last : Control) : Prop where
  point : Point s
  before : run initial before = some s
  rest : run s ('<' :: rest) = some last
  done : last.isDone = true

variable {before rest : List Char} {s last : Control}

theorem split_of_wellFormed {before behind : List Char}
    (h : isWellFormed (before ++ configurationClose ++ behind) = true) :
    ∃ s last, Split before (configurationClose.tail ++ behind) s last := by
  unfold isWellFormed at h
  rw [Option.any_eq_true, List.append_assoc, run_append] at h
  obtain ⟨last, hrun, hdone⟩ := h
  obtain ⟨s, hbefore, hrest⟩ := Option.bind_eq_some_iff.mp hrun
  exact ⟨s, last, point_of_closeTag hrest, hbefore, hrest, hdone⟩

theorem closesInside_eq (h : run initial before = some s) :
    closesInside before = s.inside "CORSRule".toList := by
  unfold closesInside
  rw [h, Option.any_some]

theorem inserted_wellFormed (h : Split before rest s last) :
    isWellFormed (before ++ directUploadCorsRule ++ '<' :: rest) = true := by
  obtain ⟨next, hpasses⟩ := rule_passes h.point
  unfold isWellFormed
  rw [List.append_assoc, run_append, h.before, Option.bind_some, run_append, hpasses.run,
    Option.bind_some, run, hpasses.step, ← run, h.rest, Option.any_some]
  exact h.done

theorem rules_split (h : Split before rest s last) :
    rules (before ++ '<' :: rest)
      = (collect "CORSRule".toList s (collect "CORSRule".toList initial ⟨[], []⟩ before)
          ('<' :: rest)).found := by
  unfold rules children
  rw [collect_append _ _ h.before]

theorem rules_inserted {next : Control} (h : Split before rest s last) (hpasses : Passes s next) :
    rules (before ++ directUploadCorsRule ++ '<' :: rest)
      = (collect "CORSRule".toList s
          (collect "CORSRule".toList s (collect "CORSRule".toList initial ⟨[], []⟩ before)
            directUploadCorsRule) ('<' :: rest)).found := by
  unfold rules children
  rw [List.append_assoc, collect_append _ _ h.before, collect_append _ _ hpasses.run,
    collect_of_passes rest hpasses]

/-- Outside the rules, none is lost. -/
theorem rules_kept (h : Split before rest s last)
    (hinside : s.inside "CORSRule".toList = false) :
    (rules (before ++ '<' :: rest)).Sublist
      (rules (before ++ directUploadCorsRule ++ '<' :: rest)) := by
  obtain ⟨next, hpasses⟩ := rule_passes h.point
  rw [rules_split h, rules_inserted h hpasses]
  generalize collect "CORSRule".toList initial ⟨[], []⟩ before = log
  have hsame : Same "CORSRule".toList s log
      (collect "CORSRule".toList s log directUploadCorsRule) :=
    .inr (loose_of_point h.point hinside)
  obtain ⟨more, hleft, hright⟩ := collect_same ('<' :: rest) hsame
  rw [hleft, hright]
  exact (collect_found _ s log directUploadCorsRule).sublist.append (List.Sublist.refl more)

/-- Inside a rule, this rule becomes another. -/
theorem rules_lost (h : Split before rest s last) (hinside : s.inside "CORSRule".toList = true) :
    rules (before ++ '<' :: rest) ≠ [] ∧
    ¬ (rules (before ++ '<' :: rest)).Sublist
      (rules (before ++ directUploadCorsRule ++ '<' :: rest)) := by
  obtain ⟨next, hpasses⟩ := rule_passes h.point
  rw [rules_split h, rules_inserted h hpasses]
  generalize collect "CORSRule".toList initial ⟨[], []⟩ before = log
  rw [collect_of_quiet log (hpasses.quiet hinside)]
  have hstack : last.stack = [] := by
    have hdone := h.done
    unfold Control.isDone at hdone
    split at hdone
    · exact List.isEmpty_iff.mp ((Bool.and_eq_true _ _).mp hdone).1
    · cases hdone
  have hlength : (Log.mk (log.current ++ directUploadCorsRule) log.found).current.length
      = log.current.length + directUploadCorsRule.length := List.length_append
  obtain ⟨child, child', more, hleft, hright, hchild⟩ :=
    collect_apart hinside hlength h.rest hstack
  rw [hleft, hright]
  refine ⟨?_, ?_⟩
  · intro hnil
    exact List.append_ne_nil_of_right_ne_nil _ (List.cons_ne_nil _ _) hnil
  · intro hsublist
    have heq := hsublist.eq_of_length (by simp only [List.length_append, List.length_cons])
    have hsame := (List.cons.inj (List.append_cancel_left heq)).1
    have hpos : 0 < directUploadCorsRule.length := List.length_pos_of_ne_nil (List.cons_ne_nil _ _)
    rw [← hsame] at hchild
    omega

/-! ## The settings that come out -/

theorem blank_of_space {around : List Char} (h : around.all isWhitespace = true) :
    isBlank around = true := by
  unfold isBlank
  refine List.all_eq_true.mpr fun c hc => ?_
  have hspace := List.all_eq_true.mp h c hc
  have hne : ∀ d : Char, isWhitespace d = false → c ≠ d := by
    intro d hd heq
    rw [heq, hd] at hspace
    cases hspace
  rw [decide_eq_true (hne '>' (by decide)), decide_eq_true (hne ';' (by decide)),
    decide_eq_true (hne '<' (by decide))]
  rfl

/-- Trimming keeps a document and its rules. -/
theorem trimmed_document {corsXml : List Char} (h : isWellFormed corsXml = true) :
    isWellFormed (trimChars corsXml) = true ∧ rules (trimChars corsXml) = rules corsXml := by
  obtain ⟨front, back, htext, hfront, hback⟩ := trimChars_around corsXml
  generalize trimChars corsXml = text at htext ⊢
  subst htext
  rw [List.append_assoc] at h ⊢
  obtain ⟨hrest, hchildren⟩ := before_document h (blank_of_space hfront)
  obtain ⟨hdone, hchildren'⟩ := behind_document hrest (blank_of_space hback)
  refine ⟨hdone, ?_⟩
  unfold rules
  rw [hchildren, hchildren']

theorem append_of_allowed {corsXml : List Char} (h : corsAllowsDirectUpload corsXml = true) :
    appendDirectUploadCorsRule corsXml = trimChars corsXml := if_pos h

theorem append_of_not {corsXml : List Char} (h : corsAllowsDirectUpload corsXml = false)
    (hne : trimChars corsXml ≠ []) : appendDirectUploadCorsRule corsXml
      = match cutLast configurationClose (trimChars corsXml) with
        | some (before, behind) => before ++ directUploadCorsRule ++ (configurationClose ++ behind)
        | none => freshConfiguration := by
  unfold appendDirectUploadCorsRule
  rw [h, if_neg Bool.false_ne_true]
  exact if_neg fun hempty => hne (List.isEmpty_iff.mp hempty)

/-- Where a rule of the fresh settings stands, the upload is allowed. -/
theorem rules_not_fresh {corsXml : List Char} (h : corsAllowsDirectUpload corsXml = false)
    (hsublist : (rules corsXml).Sublist (rules freshConfiguration)) : rules corsXml = [] := by
  cases hrules : rules corsXml with
  | nil => rfl
  | cons child more =>
    have hchild : child ∈ rules corsXml := by
      rw [hrules]
      exact List.mem_cons_self
    have hfresh := hsublist.subset hchild
    rw [rules_fresh] at hfresh
    have hallowed := allows_of_rule (List.mem_singleton.mp hfresh ▸ children_infix hchild)
    rw [h] at hallowed
    cases hallowed

/-- The settings keep every rule and allow the upload exactly where they allowed it before, where
they have no rules, or where the last closing tag that is found does not stand inside a rule. -/
theorem appended_keeps_iff (corsXml : List Char) (h : isWellFormed corsXml = true) :
    Kept corsXml (appendDirectUploadCorsRule corsXml) ↔
      corsAllowsDirectUpload corsXml = true ∨ rules corsXml = [] ∨
      ∃ before behind, cutLast configurationClose (trimChars corsXml) = some (before, behind) ∧
        closesInside before = false := by
  obtain ⟨hdocument, hrules⟩ := trimmed_document h
  cases hallows : corsAllowsDirectUpload corsXml with
  | true =>
    refine ⟨fun _ => .inl rfl, fun _ => ?_⟩
    rw [append_of_allowed hallows]
    have hallowed := allows_trimChars hallows
    exact {
      rules := by
        rw [hrules]
      allowed := hallowed
      wellFormed := hdocument
      again := append_of_allowed hallowed }
  | false =>
    have hne : trimChars corsXml ≠ [] := by
      intro hnil
      rw [hnil] at hdocument
      cases hdocument
    rw [append_of_not hallows hne, ← hrules]
    cases hcut : cutLast configurationClose (trimChars corsXml) with
    | none =>
      have hallowed : corsAllowsDirectUpload freshConfiguration = true :=
        allows_of_rule ⟨configurationOpen, configurationClose, rfl⟩
      constructor
      · intro hkept
        refine .inr (.inl ?_)
        have hsublist := hkept.rules
        rw [hrules]
        exact rules_not_fresh hallows hsublist
      · rintro (hfalse | hnone | ⟨before, behind, hsome, _⟩)
        · cases hfalse
        · exact {
            rules := by
              rw [← hrules, hnone]
              exact List.nil_sublist _
            allowed := hallowed
            wellFormed := freshConfiguration_wellFormed
            again := append_of_allowed hallowed }
        · cases hsome
    | some cut =>
      obtain ⟨before, behind⟩ := cut
      have htext := cutLast_eq_some hcut
      rw [htext] at hdocument
      obtain ⟨s, last, hsplit⟩ := split_of_wellFormed hdocument
      have hform : trimChars corsXml = before ++ '<' :: (configurationClose.tail ++ behind) := by
        rw [htext, List.append_assoc]
        rfl
      have hallowed : corsAllowsDirectUpload
          (before ++ directUploadCorsRule ++ (configurationClose ++ behind)) = true :=
        allows_of_rule ⟨before, _, rfl⟩
      dsimp only
      cases hinside : s.inside "CORSRule".toList with
      | true =>
        obtain ⟨hsome, hlost⟩ := rules_lost hsplit hinside
        constructor
        · intro hkept
          have hsublist := hkept.rules
          rw [← hrules, hform] at hsublist
          exact absurd hsublist hlost
        · rintro (hfalse | hnone | ⟨before', behind', heq, hout⟩)
          · cases hfalse
          · rw [hform] at hnone
            exact absurd hnone hsome
          · cases heq
            rw [closesInside_eq hsplit.before, hinside] at hout
            cases hout
      | false =>
        refine ⟨fun _ => .inr (.inr ⟨before, behind, rfl, ?_⟩), fun _ => ?_⟩
        · rw [closesInside_eq hsplit.before, hinside]
        · exact {
            rules := by
              rw [← hrules, hform]
              exact rules_kept hsplit hinside
            allowed := hallowed
            wellFormed := inserted_wellFormed hsplit
            again := append_of_allowed hallowed }

/-- A document with one rule, and white space in the end tag of the root. -/
def spacedDocument : List Char :=
  configurationOpen ++ ruleOpen ++ field "AllowedMethod" "GET" ++ ruleClose ++
    "</CORSConfiguration >".toList

/-- The rule is gone. -/
theorem spaced_document_loses_rule :
    isWellFormed spacedDocument = true ∧
    rules spacedDocument = [ruleOpen ++ field "AllowedMethod" "GET" ++ ruleClose] ∧
    appendDirectUploadCorsRule spacedDocument = freshConfiguration ∧
    ¬ Kept spacedDocument (appendDirectUploadCorsRule spacedDocument) := by
  have hfresh : appendDirectUploadCorsRule spacedDocument = freshConfiguration := by
    decide +kernel
  refine ⟨by decide +kernel, by decide +kernel, hfresh, ?_⟩
  intro hkept
  have hsublist := hkept.rules
  rw [hfresh] at hsublist
  revert hsublist
  decide +kernel

/-- The same document with the end tag that the code looks for. -/
def plainDocument : List Char :=
  "<?xml version='1.0'?>".toList ++ configurationOpen ++ ruleOpen ++ field "AllowedMethod" "GET" ++
    ruleClose ++ configurationClose

theorem plain_document_kept :
    Kept plainDocument (appendDirectUploadCorsRule plainDocument) := by
  refine (appended_keeps_iff plainDocument (by decide +kernel)).mpr (.inr (.inr ?_))
  refine ⟨"<?xml version='1.0'?>".toList ++ configurationOpen ++ ruleOpen ++
    field "AllowedMethod" "GET" ++ ruleClose, [], by decide +kernel, by decide +kernel⟩

end Cors
end Storage
end Yuance
