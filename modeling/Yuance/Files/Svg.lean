import Yuance.Lib.Scan
import Yuance.Platform.Crypto

/-!
# Yuance.Files.Svg

`validate_svg_content` of `api/src/domains/files.rs`: the check of an SVG file, event by event. The
XML reader (`quick_xml`) is a parameter: it gives the events of a file up to its end.

* `SelfContained`: a document that leads nowhere else.
* `accepted_svg_self_contained`: which of the accepted documents are self-contained.
-/

namespace Yuance
namespace Files

open Lib Platform

namespace Svg

def maxSvgXmlByteSize : Nat := 16 * 1024 * 1024

def maxSvgXmlDepth : Nat := 64

/-- An attribute as the reader gives it: malformed or repeated, or a name, if it is UTF-8, with the
value, if its references can be resolved. -/
inductive Attribute where
  | malformed
  | pair (key : Option String) (value : Option String)
  deriving DecidableEq

structure Element where
  localName : Option String
  attributes : List Attribute
  deriving DecidableEq

/-- An event of the reader. The attributes of an instruction are what its text names. -/
inductive Event where
  | decl
  | comment
  | instruction (attributes : List (String × String))
  | generalRef
  | text (content : Option String)
  | cdata (content : Option String)
  | docType
  | start (element : Element)
  | empty (element : Element)
  | close (localName : Option String)
  | invalid (error : String)
  deriving DecidableEq

/-! ## The check -/

/-- `value.to_ascii_lowercase()`. -/
def lower (value : String) : List Char := value.toList.map asciiLower

def allowedSvgElements : List String :=
  ["svg", "g", "rect", "path", "line", "polyline", "polygon", "circle", "text", "marker", "defs",
    "style"]

def allowedSvgElement (name : String) : Bool := allowedSvgElements.contains name

def allowedSvgAttributes : List String :=
  ["xmlns", "xmlns:xlink", "viewBox", "version", "width", "height", "x", "y", "x1", "x2", "y1", "y2",
    "cx", "cy", "r", "rx", "ry", "d", "points", "fill", "fill-opacity", "stroke", "stroke-width",
    "stroke-linecap", "stroke-linejoin", "stroke-dasharray", "stroke-opacity", "opacity",
    "transform", "text-anchor", "font-family", "font-size", "font-weight", "dominant-baseline",
    "marker-start", "marker-mid", "marker-end", "refX", "refY", "orient", "markerWidth",
    "markerHeight", "preserveAspectRatio", "id", "class", "style"]

def allowedSvgAttribute (element name : String) : Bool :=
  allowedSvgAttributes.contains name || (element = "style" && name = "type")

def allowedStyleProperties : List String :=
  ["fill", "fill-opacity", "stroke", "stroke-width", "stroke-opacity", "opacity", "font-family",
    "font-size", "font-weight", "text-anchor", "color", "marker-start", "marker-mid", "marker-end",
    "rx", "ry", "stroke-dasharray"]

/-- The declarations of a style: what stands between braces, or all of it where there are none. -/
def styleDeclarations (value : List Char) : Option (List Char) :=
  if value.contains '\x7b' || value.contains '\x7d' then
    match ((splitAll '\x7b' value).tail).mapM (fun block => (cutAt ['\x7d'] block).map Prod.fst) with
    | none => none
    | some [] => none
    | some declarations => some (List.intercalate [';'] declarations)
  else some value

def declarationIsSafe (declaration : List Char) : Bool :=
  match cutAt [':'] declaration with
  | some (property, _) =>
    allowedStyleProperties.contains (String.ofList ((trimChars property).map asciiLower))
  | none => (trimChars declaration).isEmpty

def styleIsSafe (value : String) : Bool :=
  if hasText "url(" (lower value) && !hasText "url(#" (lower value) then false
  else if hasText "expression(" (lower value) || hasText "javascript:" (lower value)
      || hasText "@import" (lower value) then false
  else
    match styleDeclarations value.toList with
    | none => false
    | some declarations => (splitAll ';' declarations).all declarationIsSafe

/-- `a.eq_ignore_ascii_case(b)`, for `b` in lower case. -/
def isNamed (b a : String) : Bool := toAsciiLowercase a = b

/-- One turn of the loop in `validate_svg_attributes`. -/
def validateSvgAttribute (element : String) : Attribute → Except AppError Unit
  | .malformed => .error (.badRequest "SVG 属性无效")
  | .pair key value => do
    let name ← okOr key (.badRequest "SVG 属性名称无效")
    let value ← okOr value (.badRequest "SVG 属性值无效")
    rejectIf (hasHead "on" name || isNamed "style" name && !styleIsSafe value)
      (.badRequest "SVG 包含不安全属性")
    rejectIf (hasText "javascript:" (lower value) || hasText "expression(" (lower value)
        || (hasText "url(" (lower value) && !hasText "url(#" (lower value)))
      (.badRequest "SVG 属性值不安全")
    rejectIf ((isNamed "href" name || isNamed "xlink:href" name) && !hasHead "#" value)
      (.badRequest "SVG 不允许外部资源引用")
    rejectIf (isNamed "id" name
        && ['<', '>', Char.ofNat 34, Char.ofNat 39].any fun c => hasChar c value)
      (.badRequest "SVG ID 无效")
    rejectIf (hasHead "xmlns" name && !hasHead "http://www.w3.org/" value)
      (.badRequest "SVG 命名空间无效")
    rejectIf (!allowedSvgAttribute element name) (.badRequest ("SVG 属性不受支持：" ++ name))

def validateSvgAttributes (element : String) (attributes : List Attribute) :
    Except AppError Unit := forEach (validateSvgAttribute element) attributes

/-- What the loop keeps. -/
structure Walk where
  depth : Nat
  styleDepth : Nat
  rootSeen : Bool
  rootClosed : Bool

def Walk.initial : Walk := { depth := 0, styleDepth := 0, rootSeen := false, rootClosed := false }

/-- Text in a style element, or elsewhere. -/
def validateText (s : Walk) (content : Option String) : Except AppError Unit :=
  if s.styleDepth > 0 then do
    let value ← okOr content (.badRequest "SVG 样式内容无效")
    rejectIf (!styleIsSafe value) (.badRequest "SVG 样式内容不安全")
  else .ok ()

/-- The name and the attributes of an element. -/
def validateElement (s : Walk) (element : Element) : Except AppError String := do
  let name ← okOr element.localName (.badRequest "SVG 元素名称无效")
  rejectIf (s.rootClosed || (!s.rootSeen && name ≠ "svg") || !allowedSvgElement name)
    (.badRequest ("SVG 元素不受支持：" ++ name))
  validateSvgAttributes name element.attributes
  pure name

/-- One turn of the loop in `validate_svg_content`. -/
def readEvent (s : Walk) : Event → Except AppError Walk
  | .decl => .ok s
  | .comment => .ok s
  | .instruction _ => .ok s
  | .generalRef => .ok s
  | .text content => do
    validateText s content
    pure s
  | .cdata content => do
    validateText s content
    pure s
  | .docType => .error (.badRequest "SVG 不允许包含 DOCTYPE")
  | .start element => do
    let name ← validateElement s element
    rejectIf (s.depth + 1 > maxSvgXmlDepth) (.badRequest "SVG 嵌套层级超过安全限制")
    pure { s with
      depth := s.depth + 1
      styleDepth := if name = "style" then s.styleDepth + 1 else s.styleDepth
      rootSeen := true }
  | .empty element => do
    let _ ← validateElement s element
    pure { s with rootSeen := true }
  | .close localName => do
    let name ← okOr localName (.badRequest "SVG 元素名称无效")
    rejectIf (s.depth = 0) (.badRequest "SVG XML 结构无效")
    rejectIf (name = "style" ∧ s.styleDepth = 0) (.badRequest "SVG XML 结构无效")
    pure { s with
      depth := s.depth - 1
      styleDepth := if name = "style" then s.styleDepth - 1 else s.styleDepth
      rootClosed := s.rootClosed || s.depth - 1 = 0 }
  | .invalid error => .error (.badRequest ("SVG XML 无效：" ++ error))

def readEvents (s : Walk) : List Event → Except AppError Walk
  | [] => .ok s
  | event :: events => do
    let s ← readEvent s event
    readEvents s events

def validateSvgContent (events : Bytes → List Event) (content : Bytes) : Except AppError Unit := do
  rejectIf (content.length = 0 ∨ content.length > maxSvgXmlByteSize)
    (.badRequest "SVG 文件为空或超过安全大小限制")
  let s ← readEvents .initial (events content)
  rejectIf (!s.rootSeen || !s.rootClosed || s.depth ≠ 0) (.badRequest "SVG XML 缺少完整 svg 根元素")

/-! ## Documents that lead nowhere else -/

/-- Every `url(` is followed by `#`. -/
def UrlsLocal (value : String) : Prop :=
  ∀ front back, lower value = front ++ "url(".toList ++ back → back.head? = some '#'

/-- An attribute that names a resource, under any prefix. -/
def isHref (name : String) : Bool :=
  isNamed "href" name || hasTail ":href" (lower name)

/-- Elements opened and not closed again. -/
def depthAfter (before : List Event) : Int :=
  (before.map fun
    | .start _ => (1 : Int)
    | .close _ => -1
    | _ => 0).sum

/-- Style elements opened and not closed again. -/
def styleDepthAfter (before : List Event) : Int :=
  (before.map fun
    | .start element => if element.localName = some "style" then (1 : Int) else 0
    | .close localName => if localName = some "style" then -1 else 0
    | _ => 0).sum

/-- `value` is the text of an event in a style element. -/
def StyleText (doc : List Event) (value : String) : Prop :=
  ∃ before event after, doc = before ++ event :: after ∧ 0 < styleDepthAfter before
    ∧ (event = .text (some value) ∨ event = .cdata (some value))

/-- `element` stands in the document, with or without content. -/
def HasElement (doc : List Event) (element : Element) : Prop :=
  .start element ∈ doc ∨ .empty element ∈ doc

/-- `value` is the value of an attribute. -/
def AttributeValue (doc : List Event) (value : String) : Prop :=
  ∃ element key, HasElement doc element ∧ .pair key (some value) ∈ element.attributes

structure SelfContained (doc : List Event) : Prop where
  attributeUrls : ∀ value, AttributeValue doc value → UrlsLocal value
  styleUrls : ∀ value, StyleText doc value → UrlsLocal value
  hrefs : ∀ element name value, HasElement doc element →
    .pair (some name) (some value) ∈ element.attributes → isHref name = true →
      hasHead "#" value = true
  instructionHrefs : ∀ attributes name value, .instruction attributes ∈ doc →
    (name, value) ∈ attributes → isHref name = true → hasHead "#" value = true
  elements : ∀ element, HasElement doc element → ∃ name, element.localName = some name
    ∧ allowedSvgElement name = true
    ∧ ∀ pair ∈ element.attributes, ∃ key value, pair = .pair (some key) (some value)
      ∧ allowedSvgAttribute name key = true
  depth : ∀ before event after element, doc = before ++ event :: after →
    event = .start element ∨ event = .empty element → depthAfter before + 1 ≤ maxSvgXmlDepth

/-- One `url(` is followed by `#`, another is not. -/
def Mixed (value : String) : Prop :=
  hasText "url(#" (lower value) = true
    ∧ ∃ front back, lower value = front ++ "url(".toList ++ back ∧ back.head? ≠ some '#'

/-- The documents in which no check is passed by: no value mixes the two kinds of `url(`, no
instruction refers outside, and no empty element stands in 64 open ones. -/
structure Unmixed (doc : List Event) : Prop where
  attributes : ∀ value, AttributeValue doc value → ¬ Mixed value
  styles : ∀ value, StyleText doc value → ¬ Mixed value
  instructions : ∀ attributes name value, .instruction attributes ∈ doc →
    (name, value) ∈ attributes → isHref name = true → hasHead "#" value = true
  empties : ∀ before element after, doc = before ++ .empty element :: after →
    depthAfter before < maxSvgXmlDepth

/-! ## What the checks make sure of -/

section Checks

variable {s s' : Walk} {name : String} {element : Element} {value : String}

theorem hasText_of_append {marker : String} {front back : List Char} :
    hasText marker (front ++ marker.toList ++ back) = true := by
  unfold hasText
  induction front with
  | nil =>
    rw [List.nil_append]
    cases hmarker : marker.toList with
    | nil =>
      cases back with
      | nil => rfl
      | cons c back => rfl
    | cons c rest =>
      rw [List.cons_append, cutAt]
      have hprefix : (c :: rest).isPrefixOf (c :: (rest ++ back)) = true :=
        List.isPrefixOf_iff_prefix.mpr ⟨back, rfl⟩
      rw [if_pos hprefix]
      rfl
  | cons c front ih =>
    rw [List.append_assoc, List.cons_append, cutAt]
    split
    · rfl
    · rw [← List.append_assoc, Option.isSome_map]
      exact ih

/-- The condition the code puts on a value. -/
def UrlsChecked (value : String) : Prop :=
  (hasText "url(" (lower value) && !hasText "url(#" (lower value)) = false

/-- A checked value is local unless it mixes. -/
theorem UrlsChecked.local_iff (h : UrlsChecked value) : UrlsLocal value ↔ ¬ Mixed value := by
  constructor
  · rintro hlocal ⟨_, front, back, hsplit, hback⟩
    exact hback (hlocal front back hsplit)
  · intro hmixed front back hsplit
    by_contra hback
    refine hmixed ⟨?_, front, back, hsplit, hback⟩
    have hurl : hasText "url(" (lower value) = true := by
      rw [hsplit]
      exact hasText_of_append
    unfold UrlsChecked at h
    rw [hurl, Bool.true_and, Bool.not_eq_false'] at h
    exact h

theorem styleIsSafe_urls (h : styleIsSafe value = true) : UrlsChecked value := by
  unfold styleIsSafe at h
  split at h
  · cases h
  · rename_i hurls
    exact (Bool.not_eq_true _).mp hurls

/-- What an accepted attribute is. -/
theorem validateSvgAttribute_ok {pair : Attribute}
    (h : validateSvgAttribute name pair = .ok ()) :
    ∃ key value, pair = .pair (some key) (some value) ∧ UrlsChecked value
      ∧ allowedSvgAttribute name key = true := by
  cases pair with
  | malformed => cases h
  | pair key value =>
    unfold validateSvgAttribute at h
    obtain ⟨key, hkey, h⟩ := bind_eq_ok.mp h
    obtain ⟨value, hvalue, h⟩ := bind_eq_ok.mp h
    obtain ⟨_, _, h⟩ := bind_eq_ok.mp h
    obtain ⟨_, hurls, h⟩ := bind_eq_ok.mp h
    obtain ⟨_, _, h⟩ := bind_eq_ok.mp h
    obtain ⟨_, _, h⟩ := bind_eq_ok.mp h
    obtain ⟨_, _, h⟩ := bind_eq_ok.mp h
    have hurls := rejectIf_eq_ok.mp hurls
    have hallowed := rejectIf_eq_ok.mp h
    rw [okOr_eq_ok.mp hkey, okOr_eq_ok.mp hvalue]
    refine ⟨key, value, rfl, ?_, ?_⟩
    · rw [Bool.not_eq_true, Bool.or_eq_false_iff] at hurls
      exact hurls.2
    · rw [Bool.not_eq_true, Bool.not_eq_false'] at hallowed
      exact hallowed

/-- An element whose name and attributes are on the lists, with checked values. -/
def ElementChecked (element : Element) : Prop :=
  ∃ name, element.localName = some name ∧ allowedSvgElement name = true
    ∧ ∀ pair ∈ element.attributes, ∃ key value, pair = .pair (some key) (some value)
      ∧ UrlsChecked value ∧ allowedSvgAttribute name key = true

theorem validateElement_ok (h : validateElement s element = .ok name) :
    element.localName = some name ∧ ElementChecked element := by
  unfold validateElement at h
  obtain ⟨name', hname, h⟩ := bind_eq_ok.mp h
  obtain ⟨_, hlisted, h⟩ := bind_eq_ok.mp h
  obtain ⟨_, hattributes, h⟩ := bind_eq_ok.mp h
  obtain rfl := Except.ok.inj h
  have hname := okOr_eq_ok.mp hname
  have hlisted := rejectIf_eq_ok.mp hlisted
  rw [Bool.not_eq_true, Bool.or_eq_false_iff, Bool.not_eq_false'] at hlisted
  exact ⟨hname, name', hname, hlisted.2, fun pair hpair =>
    validateSvgAttribute_ok (forEach_eq_ok.mp hattributes pair hpair)⟩

theorem validateText_ok {content : Option String} (h : validateText s content = .ok ())
    (hstyle : 0 < s.styleDepth) (hvalue : content = some value) : UrlsChecked value := by
  unfold validateText at h
  rw [if_pos hstyle] at h
  obtain ⟨value', hvalue', h⟩ := bind_eq_ok.mp h
  have hvalue' := okOr_eq_ok.mp hvalue'
  rw [hvalue] at hvalue'
  obtain rfl := Option.some.inj hvalue'
  have hsafe := rejectIf_eq_ok.mp h
  rw [Bool.not_eq_true, Bool.not_eq_false'] at hsafe
  exact styleIsSafe_urls hsafe

end Checks

/-! ## Along the document -/

section Along

variable {s s' : Walk} {doc before after : List Event} {event : Event}

/-- The loop counts the open elements, and the style elements among them. -/
def Counts (before : List Event) (s : Walk) : Prop :=
  (s.depth : Int) = depthAfter before ∧ (s.styleDepth : Int) = styleDepthAfter before

theorem depthAfter_append (before : List Event) (event : Event) :
    depthAfter (before ++ [event]) = depthAfter before + depthAfter [event] := by
  unfold depthAfter
  rw [List.map_append, List.sum_append]

theorem styleDepthAfter_append (before : List Event) (event : Event) :
    styleDepthAfter (before ++ [event]) = styleDepthAfter before + styleDepthAfter [event] := by
  unfold styleDepthAfter
  rw [List.map_append, List.sum_append]

/-- What one event that is accepted must be, and how it changes the counts. -/
theorem readEvent_ok (h : readEvent s event = .ok s') :
    (s'.depth : Int) = s.depth + depthAfter [event]
    ∧ (s'.styleDepth : Int) = s.styleDepth + styleDepthAfter [event]
    ∧ (∀ element, event = .start element ∨ event = .empty element → ElementChecked element)
    ∧ (∀ element, event = .start element → s.depth + 1 ≤ maxSvgXmlDepth)
    ∧ (∀ value, event = .text (some value) ∨ event = .cdata (some value) → 0 < s.styleDepth →
        UrlsChecked value) := by
  cases event with
  | decl =>
    obtain rfl := Except.ok.inj h
    exact ⟨(Int.add_zero _).symm, (Int.add_zero _).symm, by simp, by simp, by simp⟩
  | comment =>
    obtain rfl := Except.ok.inj h
    exact ⟨(Int.add_zero _).symm, (Int.add_zero _).symm, by simp, by simp, by simp⟩
  | instruction attributes =>
    obtain rfl := Except.ok.inj h
    exact ⟨(Int.add_zero _).symm, (Int.add_zero _).symm, by simp, by simp, by simp⟩
  | generalRef =>
    obtain rfl := Except.ok.inj h
    exact ⟨(Int.add_zero _).symm, (Int.add_zero _).symm, by simp, by simp, by simp⟩
  | text content =>
    obtain ⟨_, htext, h⟩ := bind_eq_ok.mp h
    obtain rfl := Except.ok.inj h
    refine ⟨(Int.add_zero _).symm, (Int.add_zero _).symm, by simp, by simp, ?_⟩
    intro value hvalue hstyle
    rcases hvalue with hvalue | hvalue
    · exact validateText_ok htext hstyle (Event.text.inj hvalue)
    · cases hvalue
  | cdata content =>
    obtain ⟨_, htext, h⟩ := bind_eq_ok.mp h
    obtain rfl := Except.ok.inj h
    refine ⟨(Int.add_zero _).symm, (Int.add_zero _).symm, by simp, by simp, ?_⟩
    intro value hvalue hstyle
    rcases hvalue with hvalue | hvalue
    · cases hvalue
    · exact validateText_ok htext hstyle (Event.cdata.inj hvalue)
  | docType => cases h
  | start element =>
    obtain ⟨name, helement, h⟩ := bind_eq_ok.mp h
    obtain ⟨_, hdepth, h⟩ := bind_eq_ok.mp h
    obtain rfl := Except.ok.inj h
    obtain ⟨hname, hchecked⟩ := validateElement_ok helement
    have hdepth := rejectIf_eq_ok.mp hdepth
    refine ⟨rfl, ?_, ?_, fun _ _ => Nat.le_of_not_lt hdepth, by simp⟩
    · unfold styleDepthAfter
      rw [List.map_singleton, List.sum_singleton]
      dsimp only
      rw [hname]
      by_cases hstyle : name = "style"
      · rw [if_pos hstyle, if_pos (congrArg some hstyle)]
        rfl
      · rw [if_neg hstyle, if_neg fun h => hstyle (Option.some.inj h)]
        exact (Int.add_zero _).symm
    · rintro element' (heq | heq)
      · rw [← Event.start.inj heq]
        exact hchecked
      · cases heq
  | empty element =>
    obtain ⟨name, helement, h⟩ := bind_eq_ok.mp h
    obtain rfl := Except.ok.inj h
    obtain ⟨hname, hchecked⟩ := validateElement_ok helement
    refine ⟨(Int.add_zero _).symm, (Int.add_zero _).symm, ?_, by simp, by simp⟩
    rintro element' (heq | heq)
    · cases heq
    · rw [← Event.empty.inj heq]
      exact hchecked
  | close localName =>
    obtain ⟨name, hname, h⟩ := bind_eq_ok.mp h
    obtain ⟨_, hdepth, h⟩ := bind_eq_ok.mp h
    obtain ⟨_, hstyle, h⟩ := bind_eq_ok.mp h
    obtain rfl := Except.ok.inj h
    have hname := okOr_eq_ok.mp hname
    have hdepth := rejectIf_eq_ok.mp hdepth
    have hstyle := rejectIf_eq_ok.mp hstyle
    refine ⟨?_, ?_, by simp, by simp, by simp⟩
    · show ((s.depth - 1 : Nat) : Int) = s.depth + -1
      omega
    · unfold styleDepthAfter
      rw [List.map_singleton, List.sum_singleton]
      dsimp only
      rw [hname]
      by_cases hclosed : name = "style"
      · rw [if_pos hclosed, if_pos (congrArg some hclosed)]
        have hopen : s.styleDepth ≠ 0 := fun hzero => hstyle ⟨hclosed, hzero⟩
        omega
      · rw [if_neg hclosed, if_neg fun h => hclosed (Option.some.inj h)]
        exact (Int.add_zero _).symm
  | invalid error => cases h

theorem readEvents_append :
    readEvents s (before ++ after) = (readEvents s before >>= fun s => readEvents s after) := by
  induction before generalizing s with
  | nil => rfl
  | cons event before ih =>
    rw [List.cons_append, readEvents, readEvents]
    cases readEvent s event with
    | error e => rfl
    | ok s' =>
      rw [ok_bind, ok_bind]
      exact ih

theorem readEvents_counts (h : readEvents .initial doc = .ok s) : Counts doc s := by
  induction doc using List.reverseRecOn generalizing s with
  | nil =>
    obtain rfl := Except.ok.inj h
    exact ⟨rfl, rfl⟩
  | append_singleton doc event ih =>
    rw [readEvents_append] at h
    obtain ⟨s', hdoc, h⟩ := bind_eq_ok.mp h
    obtain ⟨s'', hevent, h⟩ := bind_eq_ok.mp h
    obtain rfl := Except.ok.inj h
    obtain ⟨hdepth, hstyle⟩ := ih hdoc
    obtain ⟨hdepth', hstyle', _⟩ := readEvent_ok hevent
    constructor
    · rw [hdepth', hdepth, depthAfter_append]
    · rw [hstyle', hstyle, styleDepthAfter_append]

/-- Every event of an accepted document was read in a state that counts what stands before it. -/
theorem readEvents_at (h : readEvents .initial doc = .ok s) (hdoc : doc = before ++ event :: after) :
    ∃ s₁ s₂, Counts before s₁ ∧ readEvent s₁ event = .ok s₂ := by
  rw [hdoc, readEvents_append] at h
  obtain ⟨s₁, hbefore, h⟩ := bind_eq_ok.mp h
  obtain ⟨s₂, hevent, _⟩ := bind_eq_ok.mp h
  exact ⟨s₁, s₂, readEvents_counts hbefore, hevent⟩

theorem elementChecked_of_accepted {element : Element} (h : readEvents .initial doc = .ok s)
    (helement : HasElement doc element) : ElementChecked element := by
  rcases helement with hmem | hmem
  · obtain ⟨before, after, hdoc⟩ := List.append_of_mem hmem
    obtain ⟨s₁, s₂, _, hread⟩ := readEvents_at h hdoc
    exact (readEvent_ok hread).2.2.1 element (.inl rfl)
  · obtain ⟨before, after, hdoc⟩ := List.append_of_mem hmem
    obtain ⟨s₁, s₂, _, hread⟩ := readEvents_at h hdoc
    exact (readEvent_ok hread).2.2.1 element (.inr rfl)

theorem attributeChecked_of_accepted {value : String} (h : readEvents .initial doc = .ok s)
    (hvalue : AttributeValue doc value) : UrlsChecked value := by
  obtain ⟨element, key, helement, hpair⟩ := hvalue
  obtain ⟨_, _, _, hall⟩ := elementChecked_of_accepted h helement
  obtain ⟨key', value', heq, hchecked, _⟩ := hall _ hpair
  obtain ⟨_, hvalues⟩ := Attribute.pair.inj heq
  rw [Option.some.inj hvalues]
  exact hchecked

theorem styleChecked_of_accepted {value : String} (h : readEvents .initial doc = .ok s)
    (hvalue : StyleText doc value) : UrlsChecked value := by
  obtain ⟨before, event, after, hdoc, hstyle, hevent⟩ := hvalue
  obtain ⟨s₁, s₂, ⟨_, hcount⟩, hread⟩ := readEvents_at h hdoc
  exact (readEvent_ok hread).2.2.2.2 value hevent (by omega)

/-- No attribute on the list is a reference. -/
theorem not_isHref_of_allowed {element key : String} (h : allowedSvgAttribute element key = true) :
    isHref key = false := by
  have hall : allowedSvgAttributes.all (fun key => !isHref key) = true := by decide +kernel
  unfold allowedSvgAttribute at h
  rw [Bool.or_eq_true] at h
  rcases h with hlisted | htype
  · have hnot := List.all_eq_true.mp hall key (List.contains_iff_mem.mp hlisted)
    rw [Bool.not_eq_true'] at hnot
    exact hnot
  · rw [Bool.and_eq_true, decide_eq_true_eq, decide_eq_true_eq] at htype
    rw [htype.2]
    decide +kernel

end Along

end Svg

/-- An accepted document is self-contained exactly if no value mixes local and other `url(`, no
instruction refers outside, and no empty element stands in 64 open ones. -/
theorem accepted_svg_self_contained (events : Bytes → List Svg.Event) (content : Bytes)
    (h : Svg.validateSvgContent events content = .ok ()) :
    Svg.SelfContained (events content) ↔ Svg.Unmixed (events content) := by
  unfold Svg.validateSvgContent at h
  obtain ⟨_, _, h⟩ := bind_eq_ok.mp h
  obtain ⟨s, hread, _⟩ := bind_eq_ok.mp h
  constructor
  · intro hself
    refine ⟨fun value hvalue => ?_, fun value hvalue => ?_, hself.instructionHrefs, ?_⟩
    · exact (Svg.attributeChecked_of_accepted hread hvalue).local_iff.mp (hself.attributeUrls value hvalue)
    · exact (Svg.styleChecked_of_accepted hread hvalue).local_iff.mp (hself.styleUrls value hvalue)
    · intro before element after hdoc
      have hdepth := hself.depth before _ after element hdoc (.inr rfl)
      omega
  · intro hunmixed
    refine ⟨fun value hvalue => ?_, fun value hvalue => ?_, ?_, hunmixed.instructions, ?_, ?_⟩
    · exact (Svg.attributeChecked_of_accepted hread hvalue).local_iff.mpr
        (hunmixed.attributes value hvalue)
    · exact (Svg.styleChecked_of_accepted hread hvalue).local_iff.mpr (hunmixed.styles value hvalue)
    · intro element name value helement hpair hhref
      obtain ⟨_, _, _, hall⟩ := Svg.elementChecked_of_accepted hread helement
      obtain ⟨key, _, heq, _, hallowed⟩ := hall _ hpair
      obtain ⟨hkeys, _⟩ := Svg.Attribute.pair.inj heq
      rw [Option.some.inj hkeys, Svg.not_isHref_of_allowed hallowed] at hhref
      cases hhref
    · intro element helement
      obtain ⟨name, hname, hlisted, hall⟩ := Svg.elementChecked_of_accepted hread helement
      refine ⟨name, hname, hlisted, fun pair hpair => ?_⟩
      obtain ⟨key, value, heq, _, hallowed⟩ := hall pair hpair
      exact ⟨key, value, heq, hallowed⟩
    · rintro before event after element hdoc (rfl | rfl)
      · obtain ⟨s₁, s₂, ⟨hcount, _⟩, hevent⟩ := Svg.readEvents_at hread hdoc
        have hdepth := (Svg.readEvent_ok hevent).2.2.2.1 element rfl
        omega
      · have hdepth := hunmixed.empties before element after hdoc
        omega

/-- A drawing with one attribute. -/
def Svg.drawing (fill : String) : Bytes := utf8 ("<svg><rect fill='" ++ fill ++ "'/></svg>")

def Svg.eventsOf (fill : String) : List Svg.Event :=
  [.start { localName := some "svg", attributes := [] },
    .empty { localName := some "rect", attributes := [.pair (some "fill") (some fill)] },
    .close (some "svg")]

/-- The events of the drawings below. -/
def Svg.drawingEvents (content : Bytes) : List Svg.Event :=
  match ["url(#a)", "url(#a) url(//example.com)"].find? fun fill => content = drawing fill with
  | some fill => eventsOf fill
  | none => [.invalid "syntax error"]

theorem accepted_svg_self_contained_drawing :
    Svg.SelfContained (Svg.drawingEvents (Svg.drawing "url(#a)"))
      ↔ Svg.Unmixed (Svg.drawingEvents (Svg.drawing "url(#a)")) :=
  accepted_svg_self_contained Svg.drawingEvents (Svg.drawing "url(#a)") (by decide +kernel)

/-- A value with a local reference may have another one that leads elsewhere. -/
theorem mixed_url_accepted :
    Svg.validateSvgContent Svg.drawingEvents (Svg.drawing "url(#a) url(//example.com)") = .ok ()
      ∧ ¬ Svg.SelfContained (Svg.drawingEvents (Svg.drawing "url(#a) url(//example.com)")) := by
  refine ⟨by decide +kernel, fun hself => ?_⟩
  have hevents : Svg.drawingEvents (Svg.drawing "url(#a) url(//example.com)")
      = Svg.eventsOf "url(#a) url(//example.com)" := by decide +kernel
  rw [hevents] at hself
  have hlocal := hself.attributeUrls "url(#a) url(//example.com)"
    ⟨_, some "fill", .inr (List.mem_cons_of_mem _ List.mem_cons_self), List.mem_cons_self⟩
  have hother := hlocal "url(#a) ".toList "//example.com)".toList (by decide +kernel)
  exact absurd hother (by decide +kernel)

end Files
end Yuance
