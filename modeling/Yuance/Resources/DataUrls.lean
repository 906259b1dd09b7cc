import Yuance.Resources.Html

/-!
# Yuance.Resources.DataUrls

What the attribute filter of `sanitize_resource_html` keeps of `data:` URLs. The filter looks for
the text `data:` as it stands, and a URL parser reads more spellings than this one.

* `schemeIsData`: how a URL parser reads the scheme.
* `Disguised`: an attribute whose spelling the filter does not see.
* `data_urls_are_svg_images`: what is kept as a `data:` URL is a validated image, unless it is
  disguised.
-/

namespace Yuance
namespace Resources

open Lib Platform

/-- What a URL parser takes away in front of a URL. -/
def isControlOrSpace (c : Char) : Bool := c.toNat ≤ 32

/-- What it takes away wherever it stands. -/
def isTabOrNewline (c : Char) : Bool := c.toNat = 9 || c.toNat = 10 || c.toNat = 13

def schemeIsDataChars (value : List Char) : Bool :=
  "data:".toList.isPrefixOf
    (((value.dropWhile isControlOrSpace).filter fun c => !isTabOrNewline c).map asciiLower)

/-- The scheme of the URL is `data`. -/
def schemeIsData (value : String) : Bool := schemeIsDataChars value.toList

/-- The source of an image whose payload is a valid SVG file. -/
def IsSvgImage (M : Markup) (element attr value : String) : Prop :=
  element = "img" ∧ attr = "src" ∧ ∃ encoded content,
    value = svgDataHead ++ encoded ∧ Base64.decode Base64.standard encoded = some content ∧
      M.validSvg content = true

/-- The source of a medium. -/
def IsMediaSource (element attr : String) : Prop :=
  (element = "img" ∨ element = "source" ∨ element = "video") ∧ attr = "src"

/-- A `data:` URL in capitals, behind a control character or with a tab inside the scheme, in an
attribute of which the filter checks nothing else. -/
def Disguised (element attr value : String) : Prop :=
  schemeIsData value = true ∧ "data:".toList.isPrefixOf (trimStart value.toList) = false ∧
    attr ≠ "data-yuance-section-id" ∧ ¬ IsMediaSource element attr

section Schemes

variable {value : List Char} {c : Char}

theorem schemeIsDataChars_control (h : isControlOrSpace c = true) :
    schemeIsDataChars (c :: value) = schemeIsDataChars value := by
  unfold schemeIsDataChars
  rw [List.dropWhile_cons_of_pos h]

/-- Behind the control characters stands the first letter. -/
theorem schemeIsDataChars_head (hcontrol : isControlOrSpace c = false) (hc : asciiLower c ≠ 'd') :
    schemeIsDataChars (c :: value) = false := by
  have hkept : (!isTabOrNewline c) = true := by
    unfold isControlOrSpace at hcontrol
    unfold isTabOrNewline
    have hlarge := of_decide_eq_false hcontrol
    simp
    omega
  have hfilter : (c :: value).filter (fun c => !isTabOrNewline c) =
      c :: value.filter fun c => !isTabOrNewline c := List.filter_cons_of_pos hkept
  have hfirst : ('d' == asciiLower c) = false := beq_false_of_ne fun h => hc h.symm
  unfold schemeIsDataChars
  rw [List.dropWhile_cons_of_neg (by rw [hcontrol]; decide), hfilter, List.map_cons]
  show ('d' == asciiLower c && _) = false
  rw [hfirst, Bool.false_and]

theorem asciiLower_whitespace (h : isWhitespace c = true) : asciiLower c ≠ 'd' := by
  intro hd
  unfold asciiLower at hd
  split at hd
  · rename_i hupper
    rw [Bool.and_eq_true, decide_eq_true_eq, decide_eq_true_eq] at hupper
    have hlow : 65 ≤ c.toNat := hupper.1
    have hhigh : c.toNat ≤ 90 := hupper.2
    simp [isWhitespace] at h
    omega
  · obtain rfl := hd
    exact absurd h (by decide)

/-- A text whose first character behind the white space is not the letter has another scheme. -/
theorem schemeIsDataChars_of_trimStart (hhead : (trimStart value).head? = some c)
    (hcontrol : isControlOrSpace c = false) (hc : asciiLower c ≠ 'd') :
    schemeIsDataChars value = false := by
  induction value with
  | nil => cases hhead
  | cons a value ih =>
    unfold trimStart at hhead ih
    by_cases hspace : isWhitespace a = true
    · rw [List.dropWhile_cons_of_pos hspace] at hhead
      by_cases ha : isControlOrSpace a = true
      · rw [schemeIsDataChars_control ha]
        exact ih hhead
      · exact schemeIsDataChars_head (Bool.not_eq_true _ ▸ ha) (asciiLower_whitespace hspace)
    · rw [List.dropWhile_cons_of_neg hspace] at hhead
      obtain rfl := Option.some.inj hhead
      exact schemeIsDataChars_head hcontrol hc

end Schemes

section Filter

variable {M : Markup} {projectKey element attr value : String} {resourceId : Int}

theorem schemeIsData_of_sectionId (h : validResourceSectionId value = true) :
    schemeIsData value = false := by
  unfold validResourceSectionId stripHead at h
  by_cases hhead : "yuance-section-".toList.isPrefixOf value.toList = true
  · obtain ⟨rest, hrest⟩ := List.isPrefixOf_iff_prefix.mp hhead
    unfold schemeIsData
    rw [← hrest]
    exact schemeIsDataChars_head (by decide) (by decide)
  · rw [if_neg hhead] at h
    cases h

theorem schemeIsData_of_attachmentUrl
    (h : resourceAttachmentUrlLike value.toList projectKey resourceId = true) :
    schemeIsData value = false := by
  have hpath : "/web/projects/".toList <+: (trimChars value.toList).takeWhile (· ≠ '?') := by
    unfold resourceAttachmentUrlLike at h
    simp only [Bool.and_eq_true] at h
    exact List.isPrefixOf_iff_prefix.mp h.1.1.1.1.1
  have htrim : trimChars value.toList <+: trimStart value.toList :=
    List.rdropWhile_prefix isWhitespace (trimStart value.toList)
  obtain ⟨rest, hrest⟩ := (hpath.trans (List.takeWhile_prefix _)).trans htrim
  refine schemeIsDataChars_of_trimStart (c := '/') ?_ (by decide) (by decide)
  rw [← hrest]
  rfl

theorem svg_of_isSafe (h : isSafeInlineSvgDataUrl M value = true) : ∃ encoded content,
    value = svgDataHead ++ encoded ∧ Base64.decode Base64.standard encoded = some content ∧
      M.validSvg content = true := by
  unfold isSafeInlineSvgDataUrl stripHead at h
  by_cases hhead : svgDataHead.toList.isPrefixOf value.toList = true
  · rw [if_pos hhead] at h
    dsimp only at h
    split at h
    · cases h
    · rename_i content hdecode
      refine ⟨_, content, ?_, hdecode, h⟩
      obtain ⟨rest, hrest⟩ := List.isPrefixOf_iff_prefix.mp hhead
      rw [← hrest, List.drop_left, ← String.toList_inj, String.toList_append,
        String.toList_ofList, hrest]
  · rw [if_neg hhead] at h
    cases h

end Filter

/-- A kept attribute that is a `data:` URL is the source of an image with a valid SVG file, exactly
if it is not disguised. -/
theorem data_urls_are_svg_images (M : Markup) (projectKey : String) (resourceId : Int)
    (element attr value : String) :
    (keepsAttribute M projectKey resourceId element attr value = true → schemeIsData value = true →
      IsSvgImage M element attr value) ↔ ¬ Disguised element attr value := by
  constructor
  · rintro h ⟨hdata, hspelled, hsection, hmedia⟩
    have hkept : keepsAttribute M projectKey resourceId element attr value = true := by
      unfold keepsAttribute
      rw [if_neg fun h => hsection h.1, if_neg (by rw [hspelled]; decide)]
      exact if_neg hmedia
    obtain ⟨helement, hattr, _⟩ := h hkept hdata
    exact hmedia ⟨.inl helement, hattr⟩
  · intro hplain hkept hdata
    unfold keepsAttribute at hkept
    by_cases hsection : attr = "data-yuance-section-id"
    · -- a section id is no URL
      by_cases hvalid : validResourceSectionId value = true
      · rw [schemeIsData_of_sectionId hvalid] at hdata
        cases hdata
      · rw [if_pos ⟨hsection, hvalid⟩] at hkept
        cases hkept
    · rw [if_neg fun h => hsection h.1] at hkept
      by_cases hspelled : "data:".toList.isPrefixOf (trimStart value.toList) = true
      · rw [if_pos hspelled, Bool.and_eq_true, Bool.and_eq_true] at hkept
        exact ⟨eq_of_beq hkept.1.1, eq_of_beq hkept.1.2, svg_of_isSafe hkept.2⟩
      · rw [if_neg hspelled] at hkept
        by_cases hmedia : IsMediaSource element attr
        · rw [if_pos ⟨hmedia.1, hmedia.2⟩, Bool.or_eq_true] at hkept
          rcases hkept with hurl | hsafe
          · rw [schemeIsData_of_attachmentUrl hurl] at hdata
            cases hdata
          · -- the text would begin with `data:`
            obtain ⟨encoded, _, rfl, _⟩ := svg_of_isSafe hsafe
            refine absurd ?_ hspelled
            rw [String.toList_append]
            rfl
        · exact absurd ⟨hdata, Bool.not_eq_true _ ▸ hspelled, hsection, hmedia⟩ hplain

/-- A cleaner that leaves everything as it is, and a check that accepts no drawing. -/
def plainMarkup : Markup where
  clean _ body := body
  unescape := some
  events _ := none
  validSvg _ := false
  freshSectionId _ := "yuance-section-0"

/-- A link in capitals is kept. -/
theorem data_link_in_capitals_kept :
    keepsAttribute plainMarkup "PA" 1 "a" "href" "DATA:text/html,x" = true ∧
      schemeIsData "DATA:text/html,x" = true ∧
      ¬ IsSvgImage plainMarkup "a" "href" "DATA:text/html,x" := by
  refine ⟨by decide +kernel, by decide +kernel, ?_⟩
  rintro ⟨helement, _⟩
  exact absurd helement (by decide)

end Resources
end Yuance
