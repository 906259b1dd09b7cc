import Yuance.Projects.CommentBody

/-!
# Yuance.Projects.FlowRecords

Which bodies count as records of the system. The check of a comment looks for the prefix in the plain
text of the raw body, with its letter case; a stored body is told by its own first characters, and by
the queries without regard to the case.

* `Forges`: a body that passes the checks and begins with the prefix once it is stored.
-/

namespace Yuance
namespace Projects
namespace FlowRecords

open Lib Platform Resources

/-- The prefix in any letter case. -/
def startsFlow (text : List Char) : Bool := startsCaseless workItemFlowCommentHead.toList text

/-- The text that a parsed body begins with, where the elements that the cleaner does not keep and
the scripts, styles and comments are set aside. -/
def shownText (C : Cleaner) (body : String) : List Char :=
  (leadAll (C.policy commentConfig) (C.parse body)).1

/-- A body that passes the checks on the raw text. -/
def PassesHtml (raw : String) : Prop :=
  charCount raw ≤ 20000 ∧ hasHead workItemFlowCommentHead (htmlToPlainText raw) = false ∧
    ensureCommentHtmlMediaSourcesAreControlled raw.toList = .ok () ∧
    ensureCommentHtmlAttachmentLinksAreControlled raw.toList = .ok ()

def PassesPlain (raw : String) : Prop :=
  charCount raw ≤ 5000 ∧ hasHead workItemFlowCommentHead raw = false

/-- A body that passes the checks although its text begins with the prefix, in some letter case. -/
def Forges (C : Cleaner) (body bodyFormat : String) : Prop :=
  match normalizeCommentBodyFormat bodyFormat with
  | .ok .html => PassesHtml (trim body) ∧ startsFlow (shownText C (trim body)) = true
  | .ok .plain => PassesPlain (trim body) ∧ startsFlow (trim body).toList = true
  | .error _ => False

/-- Both ways to tell a flow record say the same of the body. -/
def Agrees (body : String) : Prop := (normalizeWorkItemCommentBody body).2 = isFlowRow body

/-- The stored comment counts as no flow record. -/
def IsComment (body : String) : Prop :=
  (normalizeWorkItemCommentBody body).2 = false ∧ isFlowRow body = false

theorem flowHead_toList : workItemFlowCommentHead.toList =
    ['[', 'y', 'u', 'a', 'n', 'c', 'e', '-', 'f', 'l', 'o', 'w', ']', ' '] := by
  decide +kernel

/-- The prefix has no wildcards, and nothing in it is escaped. -/
theorem flowHead_all : workItemFlowCommentHead.toList.all
    (fun c => decide ((c ≠ '%' ∧ c ≠ '_') ∧ Plain c)) = true := by
  decide +kernel

theorem flowHead_mem {c : Char} (h : c ∈ workItemFlowCommentHead.toList) :
    (c ≠ '%' ∧ c ≠ '_') ∧ Plain c :=
  of_decide_eq_true (List.all_eq_true.mp flowHead_all c h)

theorem isFlowRow_eq (body : String) : isFlowRow body = startsFlow body.toList := by
  have hpattern : (workItemFlowCommentHead ++ "%").toList =
      workItemFlowCommentHead.toList ++ ['%'] := String.toList_append
  unfold isFlowRow startsFlow
  rw [hpattern]
  exact likePattern_head fun c hc => (flowHead_mem hc).1

theorem normalize_snd (body : String) :
    (normalizeWorkItemCommentBody body).2 = hasHead workItemFlowCommentHead body := by
  unfold normalizeWorkItemCommentBody stripHead hasHead
  cases workItemFlowCommentHead.toList.isPrefixOf body.toList <;> rfl

/-- The queries find every body that the prefix is stripped from. -/
theorem startsFlow_of_hasHead {body : String} (h : hasHead workItemFlowCommentHead body = true) :
    startsFlow body.toList = true := startsCaseless_of_isPrefixOf h

theorem isComment_iff {body : String} : IsComment body ↔ startsFlow body.toList = false := by
  unfold IsComment
  rw [isFlowRow_eq, normalize_snd]
  constructor
  · exact fun h => h.2
  · intro h
    refine ⟨?_, h⟩
    rw [← Bool.not_eq_true]
    intro hhead
    rw [startsFlow_of_hasHead hhead] at h
    cases h

theorem IsComment.agrees {body : String} (h : IsComment body) : Agrees body := h.1.trans h.2.symm

theorem agrees_encode (body : String) : Agrees (encodeFlowCommentBody body) := by
  have hhead : hasHead workItemFlowCommentHead (encodeFlowCommentBody body) = true := by
    unfold hasHead encodeFlowCommentBody
    rw [String.toList_append, List.isPrefixOf_iff_prefix]
    exact List.prefix_append _ _
  unfold Agrees
  rw [normalize_snd, isFlowRow_eq, hhead, startsFlow_of_hasHead hhead]

/-! ## What is stored -/

theorem validateOptionalText_eq_ok {value fieldName v : String} {maxChars : Nat} :
    validateOptionalText value fieldName maxChars = .ok v ↔
      charCount (trim value) ≤ maxChars ∧ trim value = v := by
  unfold validateOptionalText
  rw [bind_eq_ok]
  constructor
  · rintro ⟨_, hle, hv⟩
    exact ⟨Nat.not_lt.mp (rejectIf_eq_ok.mp hle), Except.ok.inj hv⟩
  · rintro ⟨hle, rfl⟩
    exact ⟨(), rejectIf_neg (Nat.not_lt.mpr hle), rfl⟩

theorem ensurePlain_eq_ok {body : String} {u : Unit} :
    ensurePlainWorkItemCommentBody body = .ok u ↔ hasHead workItemFlowCommentHead body = false := by
  unfold ensurePlainWorkItemCommentBody
  rw [rejectIf_eq_ok, Bool.not_eq_true]

/-- A plain body is stored as it is, trimmed. -/
theorem preparePlainBody_eq_ok {body subject : String} {prepared : PreparedWorkItemCommentBody} :
    preparePlainBody body subject = .ok prepared ↔
      PassesPlain (trim body) ∧ trim body ≠ "" ∧ prepared = ⟨trim body, .plain, trim body⟩ := by
  unfold preparePlainBody
  constructor
  · intro h
    obtain ⟨raw, hraw, h⟩ := bind_eq_ok.mp h
    obtain ⟨hle, rfl⟩ := validateOptionalText_eq_ok.mp hraw
    obtain ⟨_, hne, h⟩ := bind_eq_ok.mp h
    obtain ⟨_, hhead, h⟩ := bind_eq_ok.mp h
    exact ⟨⟨hle, ensurePlain_eq_ok.mp hhead⟩, rejectIf_eq_ok.mp hne, (Except.ok.inj h).symm⟩
  · rintro ⟨⟨hle, hhead⟩, hne, rfl⟩
    refine bind_eq_ok.mpr ⟨trim body, validateOptionalText_eq_ok.mpr ⟨hle, rfl⟩, ?_⟩
    refine bind_eq_ok.mpr ⟨(), rejectIf_neg hne, ?_⟩
    exact bind_eq_ok.mpr ⟨(), ensurePlain_eq_ok.mpr hhead, rfl⟩

/-- The body as it is stored, where an HTML body is accepted. -/
def preparedHtml (C : Cleaner) (body : String) : PreparedWorkItemCommentBody :=
  let stored := sanitizeCommentHtml C (trim body)
  { body := stored, bodyFormat := .html, plainText := htmlToPlainText stored }

theorem prepareHtmlBody_eq_ok {C : Cleaner} {body subject : String}
    {prepared : PreparedWorkItemCommentBody} :
    prepareHtmlBody C body subject = .ok prepared ↔
      PassesHtml (trim body) ∧ prepared = preparedHtml C body ∧
        ¬((preparedHtml C body).plainText = "" ∧
          ¬commentHtmlHasMediaReference (preparedHtml C body).body) := by
  unfold prepareHtmlBody
  constructor
  · intro h
    obtain ⟨raw, hraw, h⟩ := bind_eq_ok.mp h
    obtain ⟨hle, rfl⟩ := validateOptionalText_eq_ok.mp hraw
    obtain ⟨_, hhead, h⟩ := bind_eq_ok.mp h
    obtain ⟨_, hmedia, h⟩ := bind_eq_ok.mp h
    obtain ⟨_, hlinks, h⟩ := bind_eq_ok.mp h
    obtain ⟨_, hfull, h⟩ := bind_eq_ok.mp h
    exact ⟨⟨hle, ensurePlain_eq_ok.mp hhead, hmedia, hlinks⟩, (Except.ok.inj h).symm,
      rejectIf_eq_ok.mp hfull⟩
  · rintro ⟨⟨hle, hhead, hmedia, hlinks⟩, rfl, hfull⟩
    refine bind_eq_ok.mpr ⟨trim body, validateOptionalText_eq_ok.mpr ⟨hle, rfl⟩, ?_⟩
    refine bind_eq_ok.mpr ⟨(), ensurePlain_eq_ok.mpr hhead, ?_⟩
    refine bind_eq_ok.mpr ⟨(), hmedia, ?_⟩
    refine bind_eq_ok.mpr ⟨(), hlinks, ?_⟩
    exact bind_eq_ok.mpr ⟨(), rejectIf_neg hfull, rfl⟩

/-! ## A body that begins with the prefix is not empty -/

theorem asciiLower_eq_bracket {c : Char} (h : '[' = asciiLower c) : c = '[' := by
  unfold asciiLower at h
  split at h
  · rename_i hupper
    rw [Bool.and_eq_true, decide_eq_true_eq, decide_eq_true_eq] at hupper
    have hlow : 65 ≤ c.toNat := hupper.1
    have hhigh : c.toNat ≤ 90 := hupper.2
    have hvalid : (c.toNat + 32).isValidChar := .inl (by omega)
    have hnat : (Char.ofNat (c.toNat + 32)).toNat = c.toNat + 32 := by
      rw [Char.toNat_ofNat, if_pos hvalid]
    rw [← h] at hnat
    change 91 = c.toNat + 32 at hnat
    omega
  · exact h.symm

theorem startsFlow_cons {text : List Char} (h : startsFlow text = true) :
    ∃ rest, text = '[' :: rest := by
  unfold startsFlow at h
  rw [flowHead_toList] at h
  cases text with
  | nil => cases h
  | cons c cs =>
    rw [startsCaseless, Bool.and_eq_true, beq_iff_eq] at h
    exact ⟨cs, by rw [asciiLower_eq_bracket h.1]⟩

/-- A replacement leaves a first character alone that its pattern does not begin with. -/
theorem replaceText_cons {pattern by_ : String} {p c : Char} {ps l : List Char}
    (hpattern : pattern.toList = p :: ps) (hne : p ≠ c) :
    ∃ rest, replaceText pattern by_ (c :: l) = c :: rest := by
  have hcut : cutAt pattern.toList (c :: l) =
      (cutAt pattern.toList l).map fun cut => (c :: cut.1, cut.2) := by
    rw [cutAt, if_neg]
    rw [hpattern, List.isPrefixOf_cons_cons, Bool.and_eq_true, beq_iff_eq]
    exact fun h => hne h.1
  unfold replaceText
  rw [List.length_cons, replaceAll, hcut]
  cases cutAt pattern.toList l with
  | none => exact ⟨l, rfl⟩
  | some cut => exact ⟨_, rfl⟩

theorem decodeBasicHtmlEntities_cons (l : List Char) :
    ∃ rest, decodeBasicHtmlEntities ('[' :: l) = '[' :: rest := by
  unfold decodeBasicHtmlEntities
  have hne : '&' ≠ '[' := by decide
  obtain ⟨l, h⟩ := @replaceText_cons "&nbsp;" " " _ _ _ l rfl hne
  rw [h]
  obtain ⟨l, h⟩ := @replaceText_cons "&amp;" "&" _ _ _ l rfl hne
  rw [h]
  obtain ⟨l, h⟩ := @replaceText_cons "&lt;" "<" _ _ _ l rfl hne
  rw [h]
  obtain ⟨l, h⟩ := @replaceText_cons "&gt;" ">" _ _ _ l rfl hne
  rw [h]
  obtain ⟨l, h⟩ := @replaceText_cons "&quot;" "\"" _ _ _ l rfl hne
  rw [h]
  exact replaceText_cons rfl hne

theorem splitWhitespace_cons (l : List Char) :
    ∃ word rest, splitWhitespace ('[' :: l) = ('[' :: word) :: rest := by
  have hblank : isWhitespace '[' = false := by decide
  unfold splitWhitespace
  rw [hblank, if_neg Bool.false_ne_true]
  split
  · exact ⟨[], _, rfl⟩
  · split
    · exact ⟨[], _, rfl⟩
    · split
      · exact ⟨[], [], rfl⟩
      · exact ⟨_, _, rfl⟩

theorem htmlToPlainText_ne_empty {body : String} (h : startsFlow body.toList = true) :
    htmlToPlainText body ≠ "" := by
  obtain ⟨l, hbody⟩ := startsFlow_cons h
  obtain ⟨l', hdecoded⟩ := decodeBasicHtmlEntities_cons (textOutsideTags false l)
  obtain ⟨word, rest, hwords⟩ := splitWhitespace_cons l'
  have htext : textOutsideTags false ('[' :: l) = '[' :: textOutsideTags false l := rfl
  intro hempty
  unfold htmlToPlainText at hempty
  rw [hbody, htext, hdecoded, hwords] at hempty
  have hlist := congrArg String.toList hempty
  rw [String.toList_ofList] at hlist
  cases rest with
  | nil => cases hlist
  | cons w ws => cases hlist

/-! ## Which comments are no flow records -/

/-- The stored HTML begins with the prefix where the text that is shown does. -/
theorem startsFlow_sanitized {C : Cleaner} (hC : Cleans C) (body : String) :
    startsFlow (sanitizeCommentHtml C body).toList = startsFlow (shownText C body) := by
  unfold sanitizeCommentHtml startsFlow shownText
  rw [hC.written]
  exact startsCaseless_writtenAll _ (fun c hc => (flowHead_mem hc).2) _

/-- The comment that is stored for the input counts as no flow record, and all stored bodies are
told alike by the code and the queries. -/
def CannotForge (C : Cleaner) (body bodyFormat subject : String) : Prop :=
  (∀ prepared, prepareWorkItemCommentBody C body bodyFormat subject = .ok prepared →
    IsComment prepared.body ∧ Agrees prepared.body) ∧
  ∀ flowBody, Agrees (encodeFlowCommentBody flowBody)

theorem cannotForge_iff {C : Cleaner} {body bodyFormat subject : String} :
    CannotForge C body bodyFormat subject ↔
      ∀ prepared, prepareWorkItemCommentBody C body bodyFormat subject = .ok prepared →
        startsFlow prepared.body.toList = false := by
  constructor
  · intro h prepared hprepared
    exact isComment_iff.mp (h.1 prepared hprepared).1
  · intro h
    refine ⟨?_, agrees_encode⟩
    intro prepared hprepared
    have hcomment := isComment_iff.mpr (h prepared hprepared)
    exact ⟨hcomment, hcomment.agrees⟩

theorem prepare_plain {C : Cleaner} {body bodyFormat subject : String}
    (h : normalizeCommentBodyFormat bodyFormat = .ok .plain) :
    prepareWorkItemCommentBody C body bodyFormat subject = preparePlainBody body subject := by
  unfold prepareWorkItemCommentBody
  rw [h, ok_bind]

theorem prepare_html {C : Cleaner} {body bodyFormat subject : String}
    (h : normalizeCommentBodyFormat bodyFormat = .ok .html) :
    prepareWorkItemCommentBody C body bodyFormat subject = prepareHtmlBody C body subject := by
  unfold prepareWorkItemCommentBody
  rw [h, ok_bind]

theorem plain_iff {body subject : String} :
    (∀ prepared, preparePlainBody body subject = .ok prepared →
      startsFlow prepared.body.toList = false) ↔
      ¬(PassesPlain (trim body) ∧ startsFlow (trim body).toList = true) := by
  constructor
  · rintro h ⟨hpasses, hflow⟩
    have hne : trim body ≠ "" := by
      intro hempty
      rw [hempty] at hflow
      obtain ⟨_, hcons⟩ := startsFlow_cons hflow
      cases hcons
    have hstored := h _ (preparePlainBody_eq_ok.mpr ⟨hpasses, hne, rfl⟩)
    exact Bool.false_ne_true (hstored.symm.trans hflow)
  · intro h prepared hprepared
    obtain ⟨hpasses, -, rfl⟩ := preparePlainBody_eq_ok.mp hprepared
    rw [← Bool.not_eq_true]
    exact fun hflow => h ⟨hpasses, hflow⟩

theorem html_iff {C : Cleaner} (hC : Cleans C) {body subject : String} :
    (∀ prepared, prepareHtmlBody C body subject = .ok prepared →
      startsFlow prepared.body.toList = false) ↔
      ¬(PassesHtml (trim body) ∧ startsFlow (shownText C (trim body)) = true) := by
  rw [← startsFlow_sanitized hC (trim body)]
  constructor
  · rintro h ⟨hpasses, hflow⟩
    have hfull := htmlToPlainText_ne_empty hflow
    have hstored := h _ (prepareHtmlBody_eq_ok.mpr ⟨hpasses, rfl, fun hempty => hfull hempty.1⟩)
    exact Bool.false_ne_true (hstored.symm.trans hflow)
  · intro h prepared hprepared
    obtain ⟨hpasses, rfl, -⟩ := prepareHtmlBody_eq_ok.mp hprepared
    rw [← Bool.not_eq_true]
    exact fun hflow => h ⟨hpasses, hflow⟩

/-- A comment cannot pass for a flow record if and only if its text does not begin with the prefix in
any letter case, or a check on the raw body rejects it. -/
theorem comments_are_no_flow_records (C : Cleaner) (hC : Cleans C)
    (body bodyFormat subject : String) :
    CannotForge C body bodyFormat subject ↔ ¬Forges C body bodyFormat := by
  rw [cannotForge_iff]
  unfold Forges
  cases hformat : normalizeCommentBodyFormat bodyFormat with
  | error e =>
    unfold prepareWorkItemCommentBody
    rw [hformat]
    exact ⟨fun _ h => h, fun _ _ h => nomatch h⟩
  | ok format =>
    cases format with
    | plain =>
      rw [prepare_plain hformat]
      exact plain_iff
    | html =>
      rw [prepare_html hformat]
      exact html_iff hC

/-- A body with a script in front of the prefix. -/
def hiddenBody : String := "<script>1</script>[yuance-flow] closed"

def hiddenNodes : List Node :=
  [.element "script" [] [.text "1".toList], .text "[yuance-flow] closed".toList]

def sampleParse (body : String) : List Node :=
  if body = hiddenBody then hiddenNodes
  else if body = "<p>hello</p>" then [.element "p" [] [.text "hello".toList]]
  else [.text body.toList]

def samplePolicy (config : CleanerConfig) : Policy where
  allowed := fun name => ["p"].contains name || config.tags.contains name
  dropped := fun name => name == "script" || name == "style"
  startTag := fun name _ => (name ++ ">").toList
  endTag := fun name => ("</" ++ name ++ ">").toList

/-- The cleaner on the two bodies. -/
def sampleCleaner : Cleaner where
  clean := fun config body => String.ofList (writtenAll (samplePolicy config) (sampleParse body))
  parse := sampleParse
  defaultTags := ["p"]
  startTag := fun _ name _ => (name ++ ">").toList
  endTag := fun name => ("</" ++ name ++ ">").toList

theorem sampleCleaner_cleans : Cleans sampleCleaner :=
  ⟨fun _ _ => String.toList_ofList⟩

theorem hello_is_no_flow_record :
    prepareWorkItemCommentBody sampleCleaner " <p>hello</p> " "html" "评论" =
        .ok ⟨"<p>hello</p>", .html, "hello"⟩ ∧
      CannotForge sampleCleaner " <p>hello</p> " "html" "评论" := by
  refine ⟨by decide +kernel, ?_⟩
  apply (comments_are_no_flow_records sampleCleaner sampleCleaner_cleans _ _ _).mpr
  have hformat : normalizeCommentBodyFormat "html" = .ok .html := by decide +kernel
  have hshown : startsFlow (shownText sampleCleaner (trim " <p>hello</p> ")) = false := by
    decide +kernel
  unfold Forges
  rw [hformat]
  rintro ⟨-, hflow⟩
  exact Bool.false_ne_true (hshown.symm.trans hflow)

/-- The prefix behind a script is stored as a flow record, and in another letter case it is one for
the queries. -/
theorem comments_can_forge_flow_records :
    (∃ C, Cleans C ∧ ∃ body bodyFormat subject, ¬CannotForge C body bodyFormat subject) ∧
      (∃ prepared, prepareWorkItemCommentBody sampleCleaner hiddenBody "html" "评论" = .ok prepared ∧
        normalizeWorkItemCommentBody prepared.body = ("closed", true)) ∧
      ∃ prepared, prepareWorkItemCommentBody sampleCleaner "[Yuance-flow] closed" "plain" "评论" =
          .ok prepared ∧
        (normalizeWorkItemCommentBody prepared.body).2 = false ∧
        isFlowRow prepared.body = true := by
  have hhidden : prepareWorkItemCommentBody sampleCleaner hiddenBody "html" "评论" =
      .ok ⟨"[yuance-flow] closed", .html, "[yuance-flow] closed"⟩ := by decide +kernel
  have hcase : prepareWorkItemCommentBody sampleCleaner "[Yuance-flow] closed" "plain" "评论" =
      .ok ⟨"[Yuance-flow] closed", .plain, "[Yuance-flow] closed"⟩ := by decide +kernel
  refine ⟨⟨sampleCleaner, sampleCleaner_cleans, hiddenBody, "html", "评论", ?_⟩,
    ⟨_, hhidden, by decide +kernel⟩, ⟨_, hcase, by decide +kernel, by decide +kernel⟩⟩
  intro h
  have hfalse := (h.1 _ hhidden).1.1
  have htrue : (normalizeWorkItemCommentBody "[yuance-flow] closed").2 = true := by decide +kernel
  exact Bool.false_ne_true (hfalse.symm.trans htrue)

end FlowRecords
end Projects
end Yuance
