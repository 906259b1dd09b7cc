import Mathlib
import Yuance.Lib.Urls

/-!
# Yuance.Web.PreviewUrls

Where a preview is loaded from: `isPreviewContentPath` and `fetchOnce` of
`desktop/src/files/preview-content-loader.mjs`. The path is read against a base of its own when it
is checked, and behind the origin of the profile when it is fetched.

* `isPreviewContentPath`: the check, with the four patterns and the grant of a resource.
* `requestUrl`: the URL that the access token is sent to.
* `request_stays_iff`: which of the checked paths are fetched from the profile's server.
-/

namespace Yuance
namespace Web
namespace PreviewUrl

open Lib.Urls

/-! ## The patterns -/

/-- `[A-Z][A-Z0-9-]{min,max}`. -/
def isKey (min max : Nat) : List Char → Bool
  | c :: rest => c.isUpper && min ≤ rest.length && rest.length ≤ max &&
      rest.all fun d => d.isUpper || d.isDigit || d = '-'
  | [] => false

/-- `[1-9][0-9]*`. -/
def isId : List Char → Bool
  | c :: rest => c.isDigit && c != '0' && rest.all Char.isDigit
  | [] => false

/-- `/attachments/[1-9][0-9]*/preview/content`. -/
def isContentOf : List (List Char) → Bool
  | [attachments, id, preview, content] => attachments = "attachments".toList && isId id &&
      preview = "preview".toList && content = "content".toList
  | _ => false

/-- `PROJECT_CONTENT_PATH`. -/
def isProjectContentPath : List (List Char) → Bool
  | api :: version :: projects :: key :: rest => api = "api".toList && version = "v1".toList &&
      projects = "projects".toList && isKey 1 31 key && isContentOf rest
  | _ => false

/-- `RESOURCE_CONTENT_PATH`. -/
def isResourceContentPath : List (List Char) → Bool
  | api :: version :: projects :: key :: resources :: id :: rest => api = "api".toList &&
      version = "v1".toList && projects = "projects".toList && isKey 1 31 key &&
      resources = "resources".toList && isId id && isContentOf rest
  | _ => false

/-- `WORK_ITEM_CONTENT_PATH`. -/
def isWorkItemContentPath : List (List Char) → Bool
  | api :: version :: workItems :: key :: rest => api = "api".toList && version = "v1".toList &&
      workItems = "work-items".toList && isKey 2 63 key && isContentOf rest
  | _ => false

/-- `WORK_ITEM_COMMENT_CONTENT_PATH`. -/
def isWorkItemCommentContentPath : List (List Char) → Bool
  | api :: version :: workItems :: key :: comments :: id :: rest => api = "api".toList &&
      version = "v1".toList && workItems = "work-items".toList && isKey 2 63 key &&
      comments = "comments".toList && isId id && isContentOf rest
  | _ => false

/-- A path on one of the four patterns. -/
def isContentPath (path : List (List Char)) : Bool :=
  isProjectContentPath path || isWorkItemContentPath path || isWorkItemCommentContentPath path ||
    isResourceContentPath path

/-! ## The check and the request -/

/-- What the platform reads hosts and bytes with. -/
structure Platform where
  readHost : List Char → Option (List Char)
  utf8Decode : List UInt8 → List Char

/-- `value.length`, in UTF-16 code units. -/
def jsLength (value : List Char) : Nat :=
  (value.map fun c => if c.toNat < 0x10000 then 1 else 2).sum

def previewOrigin : Origin := ⟨"https".toList, "preview.invalid".toList, none⟩

/-- `new URL("https://preview.invalid")`. -/
def previewBase (p : Platform) : Option Url :=
  parseUrl p.readHost none "https://preview.invalid".toList

/-- The grant of a resource, as it is written by the server. -/
def hasAccessGrant (p : Platform) (parsed : Url) : Bool :=
  match urlencodedParse p.utf8Decode (parsed.query.getD []) with
  | [] => parsed.search = []
  | [(name, access)] => name = "access".toList && 1 ≤ jsLength access && jsLength access ≤ 4096 &&
      parsed.search = "?access=".toList ++ urlencodedEncode access
  | _ => false

def isPreviewUrl (p : Platform) (parsed : Url) : Bool :=
  if parsed.origin ≠ previewOrigin || parsed.hash ≠ [] then false
  else if isProjectContentPath parsed.path || isWorkItemContentPath parsed.path ||
      isWorkItemCommentContentPath parsed.path then parsed.search = []
  else if !isResourceContentPath parsed.path then false
  else hasAccessGrant p parsed

def isPreviewContentPath (p : Platform) (value : List Char) : Bool :=
  match previewBase p with
  | none => false
  | some base =>
    match parseUrl p.readHost (some base) value with
    | none => false
    | some parsed => isPreviewUrl p parsed

/-- The origin of a profile: what is read of its text is the origin itself. -/
structure Profile (p : Platform) where
  origin : Origin
  scheme : origin.scheme = "https".toList ∨ origin.scheme = "http".toList
  plain : ∀ c ∈ origin.authority, inAuthority c = true ∧ isStripped c = false
  reads : readAuthority p.readHost origin.scheme origin.authority =
    some (origin.host, origin.port)

/-- `new URL(profile.origin + contentPath)`: where the request goes. -/
def requestUrl (p : Platform) (profile : Profile p) (contentPath : List Char) : Option Url :=
  parseUrl p.readHost none (profile.origin.text ++ contentPath)

/-- The request goes to the server of the profile, and to a preview there. -/
def Stays (p : Platform) (profile : Profile p) (contentPath : List Char) : Prop :=
  ∃ url, requestUrl p profile contentPath = some url ∧ url.origin = profile.origin ∧
    isContentPath url.path = true

/-! ## The two readings -/

/-- What stands before the first slash. -/
def lead (value : List Char) : List Char := (cleanBehind value).takeWhile inAuthority

/-- What is read of the path against the base: its own scheme is left out. -/
def relativePart (value : List Char) : List Char :=
  match splitScheme (clean value) with
  | some (_, rest) => rest
  | none => clean value

/-- The segments behind what stands before the first slash. -/
def pathBehind (text : List Char) : List (List Char) :=
  segmentsOf (pathStart (text.dropWhile inAuthority))

/-- The segments that both readings have. -/
def commonSegments (text : List Char) : List (List Char) :=
  match text.takeWhile isSlash with
  | _ :: _ :: _ => pathBehind (text.dropWhile isSlash)
  | _ => pathBehind text

/-- The segments in front of these that only one of the readings has. Behind two slashes the check
takes what follows for a server, and the request for segments; without a slash, the check takes what
stands before the first one for a segment, and the request for a part of the server's name. -/
def extraSegments (text : List Char) : List (List Char) :=
  match text.takeWhile isSlash with
  | [] => [percentEncode isPathEncoded (text.takeWhile inAuthority)]
  | [_] => []
  | _ :: more => more.map (fun _ => []) ++
      [percentEncode isPathEncoded ((text.dropWhile isSlash).takeWhile inAuthority)]

/-- What stands before the first slash leaves the server as it is, and the surplus `..` of the path
take away what only one of the readings has. -/
def Fits (p : Platform) (profile : Profile p) (value : List Char) : Prop :=
  readAuthority p.readHost profile.origin.scheme (profile.origin.authority ++ lead value) =
      some (profile.origin.host, profile.origin.port) ∧
    ((extraSegments (relativePart value)).foldl enter []).length ≤
      surplus 0 (commonSegments (relativePart value))

/-! ## The request -/

section Request

variable {p : Platform} {profile : Profile p} {value text front rest : List Char} {c : Char}

theorem pathBehind_append (h : ∀ c ∈ front, inAuthority c = true) :
    pathBehind (front ++ text) = pathBehind text := by
  unfold pathBehind
  rw [List.dropWhile_append_of_pos h]

/-- What is left out of the path could stand in a server's name. -/
theorem pathBehind_cleanBehind (value : List Char) :
    pathBehind (cleanBehind value) = pathBehind (relativePart value) := by
  obtain ⟨front, heq, hfront⟩ := cleanBehind_eq value
  rw [heq, pathBehind_append hfront]
  unfold relativePart
  split
  · rename_i hscheme
    obtain ⟨name, hname, hall⟩ := splitScheme_eq hscheme
    rw [hname, pathBehind_append hall]
  · rfl

theorem Profile.authority_ne_nil (profile : Profile p) : profile.origin.authority ≠ [] := by
  intro hnil
  have hreads := profile.reads
  rw [hnil] at hreads
  cases hreads

/-- The request stays where it should if the server's name is still the same, and the path that is
left is one of a preview. -/
theorem stays_iff : Stays p profile value ↔
    readAuthority p.readHost profile.origin.scheme (profile.origin.authority ++ lead value) =
        some (profile.origin.host, profile.origin.port) ∧
      isContentPath (addSegments [] (pathBehind (relativePart value))) = true := by
  have hplain : ∀ c ∈ profile.origin.authority, inAuthority c = true := fun c hc =>
    (profile.plain c hc).1
  have hrequest : requestUrl p profile value =
      (readAuthority p.readHost profile.origin.scheme
        (profile.origin.authority ++ lead value)).map fun server =>
          readPath ⟨profile.origin.scheme, server.1, server.2⟩
            (pathStart ((cleanBehind value).dropWhile inAuthority)) := by
    unfold requestUrl
    rw [parseUrl_behind profile.scheme profile.authority_ne_nil profile.plain]
    unfold readServer lead
    rw [List.takeWhile_append_of_pos hplain, List.dropWhile_append_of_pos hplain]
  unfold Stays
  rw [hrequest, ← pathBehind_cleanBehind]
  constructor
  · rintro ⟨url, hurl, horigin, hpath⟩
    obtain ⟨⟨host, port⟩, hread, rfl⟩ := Option.map_eq_some_iff.mp hurl
    have hsame : (⟨profile.origin.scheme, host, port⟩ : Origin) = profile.origin := horigin
    rw [← hsame] at hread ⊢
    exact ⟨hread, hpath⟩
  · rintro ⟨hread, hpath⟩
    rw [hread]
    exact ⟨_, rfl, rfl, hpath⟩

end Request

/-! ## The check -/

section Check

variable {p : Platform} {base url : Url} {value text : List Char} {path : List (List Char)}

/-- The segments that the check reads. -/
def checkedSegments (text : List Char) : List (List Char) :=
  match text.takeWhile isSlash with
  | [] => segmentsOf text
  | _ => commonSegments text

theorem previewBase_eq (h : previewBase p = some base) :
    base.origin.scheme = "https".toList ∧ base.path = [[]] := by
  have hserver : previewBase p =
      readServer p.readHost "https".toList "preview.invalid".toList := rfl
  rw [hserver] at h
  obtain ⟨⟨host, port⟩, _, rfl⟩ := Option.map_eq_some_iff.mp h
  exact ⟨rfl, rfl⟩

/-- The path of a preview starts with the version of the interface. -/
theorem isContentPath_head (h : isContentPath path = true) :
    ∃ rest, path = "api".toList :: "v1".toList :: rest := by
  simp only [isContentPath, Bool.or_eq_true] at h
  rcases h with ((h | h) | h) | h
  · unfold isProjectContentPath at h
    split at h
    · simp only [Bool.and_eq_true, decide_eq_true_eq] at h
      exact ⟨_, by rw [h.1.1.1.1, h.1.1.1.2]⟩
    · cases h
  · unfold isWorkItemContentPath at h
    split at h
    · simp only [Bool.and_eq_true, decide_eq_true_eq] at h
      exact ⟨_, by rw [h.1.1.1.1, h.1.1.1.2]⟩
    · cases h
  · unfold isWorkItemCommentContentPath at h
    split at h
    · simp only [Bool.and_eq_true, decide_eq_true_eq] at h
      exact ⟨_, by rw [h.1.1.1.1.1.1, h.1.1.1.1.1.2]⟩
    · cases h
  · unfold isResourceContentPath at h
    split at h
    · simp only [Bool.and_eq_true, decide_eq_true_eq] at h
      exact ⟨_, by rw [h.1.1.1.1.1.1, h.1.1.1.1.1.2]⟩
    · cases h

theorem isContentPath_of_isPreviewUrl (h : isPreviewUrl p url = true) :
    url.origin = previewOrigin ∧ isContentPath url.path = true := by
  unfold isPreviewUrl at h
  split at h
  · cases h
  · rename_i horigin
    have hsame : url.origin = previewOrigin := by
      by_contra hne
      exact horigin (by rw [decide_eq_true hne]; rfl)
    refine ⟨hsame, ?_⟩
    unfold isContentPath
    split at h
    · rename_i hpath
      rw [hpath]
      rfl
    · split at h
      · cases h
      · rename_i hresource
        rw [Bool.not_eq_true'] at hresource
        rw [eq_true_of_ne_false hresource, Bool.or_true]

theorem not_isContentPath_short : isContentPath [[]] = false := by
  decide

/-- The relative state reads the segments that stand behind its slashes. -/
theorem readRelative_path (hbase : base.path = [[]])
    (h : readRelative p.readHost base text = some url) :
    url.path = addSegments [] (checkedSegments text) ∨ url.path = [[]] := by
  unfold checkedSegments commonSegments
  cases text with
  | nil =>
    obtain rfl := Option.some.inj h
    exact .inr hbase
  | cons c rest =>
    unfold readRelative at h
    dsimp only at h
    by_cases hslash : isSlash c = true
    · rw [if_pos hslash] at h
      rw [List.takeWhile_cons_of_pos hslash, List.dropWhile_cons_of_pos hslash]
      cases rest with
      | nil =>
        obtain rfl := Option.some.inj h
        exact .inr rfl
      | cons d more =>
        by_cases hnext : isSlash d = true
        · rw [if_pos (by exact hnext)] at h
          rw [List.takeWhile_cons_of_pos hnext]
          obtain ⟨⟨host, port⟩, _, rfl⟩ := Option.map_eq_some_iff.mp h
          exact .inl rfl
        · rw [if_neg (by exact hnext)] at h
          rw [List.takeWhile_cons_of_neg hnext]
          obtain rfl := Option.some.inj h
          left
          unfold pathBehind
          have hin : ¬ inAuthority c = true := by
            unfold inAuthority
            rw [hslash]
            exact Bool.false_ne_true
          rw [List.dropWhile_cons_of_neg hin]
          show addSegments [] (segmentsOf (d :: more)) =
            addSegments [] (segmentsOf (if isSlash c then d :: more else c :: d :: more))
          rw [if_pos hslash]
    · rw [if_neg hslash] at h
      rw [List.takeWhile_cons_of_neg hslash]
      split at h
      · obtain rfl := Option.some.inj h
        exact .inr hbase
      · split at h
        · obtain rfl := Option.some.inj h
          exact .inr hbase
        · obtain rfl := Option.some.inj h
          exact .inl rfl

/-- The segments that were checked make a path of a preview. -/
theorem checked_path (h : isPreviewContentPath p value = true) :
    isContentPath (addSegments [] (checkedSegments (relativePart value))) = true := by
  unfold isPreviewContentPath at h
  split at h
  · cases h
  · rename_i base hbase
    obtain ⟨hscheme, hroot⟩ := previewBase_eq hbase
    split at h
    · cases h
    · rename_i url hurl
      obtain ⟨horigin, hpath⟩ := isContentPath_of_isPreviewUrl h
      have hrelative : readRelative p.readHost base (relativePart value) = some url := by
        unfold parseUrl at hurl
        unfold relativePart
        cases hsplit : splitScheme (clean value) with
        | none =>
          rw [hsplit] at hurl
          exact hurl
        | some parts =>
          obtain ⟨scheme, rest⟩ := parts
          rw [hsplit] at hurl
          dsimp only at hurl ⊢
          split at hurl
          · cases hurl
          · split at hurl
            · exact hurl
            · rename_i hother
              obtain ⟨⟨host, port⟩, _, rfl⟩ := Option.map_eq_some_iff.mp hurl
              have hsame : scheme = "https".toList := congrArg Origin.scheme horigin
              exact absurd (hscheme.trans hsame.symm) hother
      rcases readRelative_path hroot hrelative with heq | heq
      · rw [← heq]
        exact hpath
      · rw [heq, not_isContentPath_short] at hpath
        cases hpath

/-! ## The segments -/

theorem foldl_empty (more : List Char) (count : Nat) :
    (more.map fun _ => ([] : List Char)).foldl enter (List.replicate count []) =
      List.replicate (count + more.length) [] := by
  induction more generalizing count with
  | nil => rfl
  | cons c more ih =>
    have hone : enter (List.replicate count []) [] = List.replicate (count + 1) [] := by
      rw [List.replicate_succ']
      rfl
    rw [List.map_cons, List.foldl_cons, hone, ih, List.length_cons]
    congr 1
    omega

/-- Further segments in front come from nothing but their own. -/
theorem enter_replicate (count : Nat) (segment : List Char) :
    ∀ first rest, enter (List.replicate (count + 1) []) segment = first :: rest → first = [] := by
  intro first rest h
  unfold enter at h
  split at h
  · have hmem : first ∈ (List.replicate (count + 1) ([] : List Char)).dropLast :=
      h ▸ List.mem_cons_self
    exact List.eq_of_mem_replicate (List.dropLast_subset _ hmem)
  · split at h
    · exact (List.cons.inj h).1.symm
    · exact (List.cons.inj h).1.symm

/-- A path below other segments that do not belong to it is one of a preview only if they are all
taken away. -/
theorem below_iff {front segments : List (List Char)}
    (hfirst : ∀ first rest, front = first :: rest → first ≠ "api".toList)
    (h : isContentPath (addSegments [] segments) = true) :
    isContentPath (addSegments front segments) = true ↔ front.length ≤ surplus 0 segments := by
  have hbelow := addSegments_below front [] segments
  rw [List.append_nil, List.length_nil] at hbelow
  rw [hbelow]
  constructor
  · intro hcontent
    by_contra hless
    obtain ⟨rest, hrest⟩ := isContentPath_head hcontent
    cases front with
    | nil => exact hless (Nat.zero_le _)
    | cons first others =>
      obtain ⟨n, hn⟩ : ∃ n, (first :: others).length - surplus 0 segments = n + 1 :=
        ⟨_, (Nat.succ_pred_eq_of_pos (by omega)).symm⟩
      rw [hn, List.take_succ_cons, List.cons_append] at hrest
      exact hfirst first others rfl (List.cons.inj hrest).1
  · intro hle
    rw [Nat.sub_eq_zero_of_le hle, List.take_zero, List.nil_append]
    exact h

/-- A path that was read below one segment is one of a preview without it only if the segment is
taken away. -/
theorem above_iff {segment : List Char} {segments : List (List Char)} (hne : segments ≠ [])
    (h : isContentPath (addSegments [] (segment :: segments)) = true) :
    isContentPath (addSegments [] segments) = true ↔
      (enter [] segment).length ≤ surplus 0 segments := by
  have hbelow := addSegments_below (enter [] segment) [] segments
  have hwhole : addSegments [] (segment :: segments) = addSegments (enter [] segment) segments :=
    @addSegments_append segments [segment] [] hne
  rw [List.append_nil, List.length_nil, ← hwhole] at hbelow
  rw [hbelow] at h
  constructor
  · intro hcontent
    by_contra hless
    have hone : ∃ first, enter [] segment = [first] := by
      unfold enter at hless ⊢
      split at hless
      · exact absurd (Nat.zero_le _) hless
      · split at hless
        · exact absurd (Nat.zero_le _) hless
        · rename_i hdouble hsingle
          rw [if_neg hdouble, if_neg hsingle]
          exact ⟨segment, rfl⟩
    obtain ⟨first, hone⟩ := hone
    rw [hone] at h hless
    have hzero : surplus 0 segments = 0 := by
      rw [List.length_singleton] at hless
      omega
    rw [hzero] at h
    obtain ⟨rest, hrest⟩ := isContentPath_head h
    obtain ⟨other, hother⟩ := isContentPath_head hcontent
    rw [hother] at hrest
    have hsecond := (List.cons.inj (List.cons.inj hrest).2).1
    exact absurd hsecond (by decide)
  · intro hle
    rw [Nat.sub_eq_zero_of_le hle, List.take_zero, List.nil_append] at h
    exact h

theorem pathBehind_slash {front rest : List Char} {c : Char}
    (hfront : ∀ d ∈ front, inAuthority d = true) (hc : isSlash c = true) :
    pathBehind (front ++ c :: rest) = segmentsOf rest := by
  rw [pathBehind_append hfront]
  have hin : ¬ inAuthority c = true := by
    unfold inAuthority
    rw [hc]
    exact Bool.false_ne_true
  unfold pathBehind
  rw [List.dropWhile_cons_of_neg hin]
  show segmentsOf (if isSlash c then rest else c :: rest) = segmentsOf rest
  rw [if_pos hc]

theorem pathBehind_none
    (h : ∀ c ∈ text.takeWhile (fun c => !isEnd c), isSlash c = false) :
    pathBehind text = [[]] := by
  induction text with
  | nil => rfl
  | cons c text ih =>
    by_cases hend : isEnd c = true
    · have hin : ¬ inAuthority c = true := by
        unfold inAuthority
        rw [hend, Bool.not_true, Bool.and_false]
        exact Bool.false_ne_true
      have hslash : ¬ isSlash c = true := by
        intro hslash
        have hcases : c = '?' ∨ c = '#' := by
          simpa only [isEnd, Bool.or_eq_true, decide_eq_true_eq] using hend
        rcases hcases with rfl | rfl
        · exact absurd hslash (by decide)
        · exact absurd hslash (by decide)
      unfold pathBehind
      rw [List.dropWhile_cons_of_neg hin]
      show segmentsOf (if isSlash c then text else c :: text) = [[]]
      rw [if_neg hslash]
      unfold segmentsOf
      rw [List.takeWhile_cons_of_neg (by rw [hend]; exact Bool.false_ne_true)]
      rfl
    · rw [List.takeWhile_cons_of_pos (by rw [Bool.eq_false_iff.mpr hend]; rfl)] at h
      have hslash := h c List.mem_cons_self
      have hin : inAuthority c = true := by
        unfold inAuthority
        rw [hslash, Bool.eq_false_iff.mpr hend]
        rfl
      have hone : ∀ d ∈ [c], inAuthority d = true := fun d hd => by
        rw [List.mem_singleton.mp hd]
        exact hin
      have hrest : pathBehind (c :: text) = pathBehind text := pathBehind_append hone
      rw [hrest]
      exact ih fun d hd => h d (List.mem_cons_of_mem _ hd)

theorem segmentsOf_slashes {slashes rest : List Char} (h : ∀ c ∈ slashes, isSlash c = true) :
    segmentsOf (slashes ++ rest) = slashes.map (fun _ => []) ++ segmentsOf rest := by
  induction slashes with
  | nil => rfl
  | cons c slashes ih =>
    have hone : segmentsOf (c :: (slashes ++ rest)) = [] :: segmentsOf (slashes ++ rest) :=
      @segmentsOf_append [] (slashes ++ rest) (fun _ hd => nomatch hd) c (h c List.mem_cons_self)
    rw [List.cons_append, hone, ih fun d hd => h d (List.mem_cons_of_mem _ hd)]
    rfl

theorem segmentsOf_ne_nil (text : List Char) : segmentsOf text ≠ [] :=
  fun h => List.splitOnP_ne_nil _ _ (List.map_eq_nil_iff.mp h)

theorem takeWhile_name {front rest : List Char} {c : Char}
    (hfront : ∀ d ∈ front, inAuthority d = true) (hc : isSlash c = true) :
    (front ++ c :: rest).takeWhile inAuthority = front := by
  have hin : ¬ inAuthority c = true := by
    unfold inAuthority
    rw [hc]
    exact Bool.false_ne_true
  rw [List.takeWhile_append_of_pos hfront, List.takeWhile_cons_of_neg hin, List.append_nil]

/-- Where the check saw the path of a preview, the request sees one if and only if the surplus `..`
take away what only one of them sees. -/
theorem path_iff (h : isContentPath (addSegments [] (checkedSegments text)) = true) :
    isContentPath (addSegments [] (pathBehind text)) = true ↔
      ((extraSegments text).foldl enter []).length ≤ surplus 0 (commonSegments text) := by
  obtain ⟨other, hother⟩ : ∃ other, text.dropWhile isSlash = other := ⟨_, rfl⟩
  have htext := @List.takeWhile_append_dropWhile _ isSlash text
  have hslash : ∀ c ∈ text.takeWhile isSlash, isSlash c = true := fun c hc =>
    List.mem_takeWhile_imp hc
  unfold checkedSegments commonSegments at h
  unfold extraSegments commonSegments
  rw [hother] at h htext ⊢
  cases hslashes : text.takeWhile isSlash with
  | nil =>
    rw [hslashes] at h
    dsimp only at h ⊢
    rcases split_slash text with ⟨front, c, rest, heq, hfront, hc⟩ | hnone
    · rw [heq, segmentsOf_append hfront hc] at h
      rw [heq, pathBehind_slash hfront hc, takeWhile_name hfront hc]
      exact above_iff (segmentsOf_ne_nil rest) h
    · rw [segmentsOf_eq_singleton hnone] at h
      obtain ⟨rest, hrest⟩ := isContentPath_head h
      have hshort : (finish [] (percentEncode isPathEncoded
          (text.takeWhile fun c => !isEnd c))).length ≤ 1 := by
        unfold finish
        split
        · exact Nat.le_refl 1
        · split
          · exact Nat.le_refl 1
          · exact Nat.le_refl 1
      rw [show finish [] _ = _ from hrest] at hshort
      exact absurd hshort (by rw [List.length_cons, List.length_cons]; omega)
  | cons c more =>
    rw [hslashes] at h htext hslash
    cases more with
    | nil =>
      dsimp only at h ⊢
      exact ⟨fun _ => Nat.zero_le _, fun _ => h⟩
    | cons d more =>
      dsimp only at h ⊢
      rcases split_slash other with ⟨front, e, rest, heq, hfront, he⟩ | hnone
      · rw [heq, pathBehind_slash hfront he] at h
        have hrequested : pathBehind text =
            ((d :: more).map (fun _ => []) ++ [percentEncode isPathEncoded front]) ++
              segmentsOf rest := by
          have hbehind : pathBehind text = segmentsOf (d :: more ++ other) := by
            rw [← htext]
            exact @pathBehind_slash [] _ c (fun _ hd => nomatch hd) (hslash c List.mem_cons_self)
          rw [hbehind, segmentsOf_slashes fun f hf => hslash f (List.mem_cons_of_mem _ hf), heq,
            segmentsOf_append hfront he, List.append_assoc]
          rfl
        rw [hrequested, heq, pathBehind_slash hfront he, takeWhile_name hfront he,
          addSegments_append [] (segmentsOf_ne_nil rest)]
        refine below_iff ?_ h
        intro first others hfirst
        have hempty := foldl_empty (d :: more) 0
        rw [List.foldl_append, show List.foldl enter [] _ = _ from hempty, List.length_cons,
          Nat.zero_add] at hfirst
        rw [enter_replicate _ _ first others hfirst]
        decide
      · rw [pathBehind_none hnone] at h
        rw [show addSegments [] [[]] = [[]] from rfl, not_isContentPath_short] at h
        cases h

end Check

/-- A path that was checked is fetched as a preview of the profile's server if and only if what
stands before its first slash leaves that server as it is, and the surplus `..` take away what only
one of the two readings has. -/
theorem request_stays_iff {p : Platform} (profile : Profile p) {value : List Char}
    (h : isPreviewContentPath p value = true) : Stays p profile value ↔ Fits p profile value := by
  rw [stays_iff]
  exact and_congr_right' (path_iff (checked_path h))

/-- Hosts that are names stand for themselves, and bytes for ASCII. -/
def namePlatform : Platform := ⟨some, fun bytes => bytes.map fun b => Char.ofNat b.toNat⟩

def exampleProfile : Profile namePlatform where
  origin := ⟨"https".toList, "yuance.example".toList, none⟩
  scheme := .inl rfl
  plain := by
    intro c hc
    have hall : (Origin.authority ⟨"https".toList, "yuance.example".toList, none⟩).all
        (fun c => inAuthority c && !isStripped c) = true := by decide
    simpa only [Bool.and_eq_true, Bool.not_eq_true'] using List.all_eq_true.mp hall c hc
  reads := by decide

theorem request_stays_iff_attachment :
    Stays namePlatform exampleProfile
        "/api/v1/projects/YC/attachments/1/preview/content".toList ↔
      Fits namePlatform exampleProfile
        "/api/v1/projects/YC/attachments/1/preview/content".toList :=
  request_stays_iff exampleProfile (by decide +kernel)

/-- The check reads a user's name as a segment, and the request asks the server behind it. -/
theorem request_leaves_for_another_server :
    isPreviewContentPath namePlatform
        "@evil.example/../api/v1/projects/YC/attachments/1/preview/content".toList = true ∧
      ¬ Stays namePlatform exampleProfile
        "@evil.example/../api/v1/projects/YC/attachments/1/preview/content".toList := by
  refine ⟨by decide +kernel, fun h => ?_⟩
  obtain ⟨url, hurl, horigin, _⟩ := h
  have hother : (requestUrl namePlatform exampleProfile
      "@evil.example/../api/v1/projects/YC/attachments/1/preview/content".toList).map Url.origin =
        some ⟨"https".toList, "evil.example".toList, none⟩ := by decide +kernel
  rw [hurl] at hother
  have hsame := (Option.some.inj hother).symm.trans horigin
  exact absurd hsame (by decide +kernel)

end PreviewUrl
end Web
end Yuance
