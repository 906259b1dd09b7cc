import Yuance.Web.Routes

/-!
# Yuance.Web.RouteReading

What is read of the paths that the builders of `routes.js` write.

* `queryText_setAll`: a parameter is read as it was set.
* `normalizedPage_read`, `normalizedPerPage_read`: a number that was left out is the fallback again.
* `reads_sitePath`: a path of the site is split, and its segments and its query are what was
  written.
* `built_paths_are_read`: which calls are read as they were meant, and which paths are read at all.
-/

namespace Yuance
namespace Web
namespace Routes

open Lib Lib.Urls

/-! ## Texts -/

section Texts

variable {text : List Char}

theorem trim_head (text : List Char) : ∀ c ∈ (trim text).head?, isJsSpace c = false := by
  intro c hc
  obtain ⟨back, hback⟩ := List.rdropWhile_prefix isJsSpace (text.dropWhile isJsSpace)
  have hfirst : (text.dropWhile isJsSpace).head? = some c := by
    rw [← hback, List.head?_append_of_ne_nil]
    · exact hc
    · intro hnil
      unfold trim at hc
      rw [hnil] at hc
      nomatch hc
  have hnot := List.head?_dropWhile_not isJsSpace text
  rw [hfirst] at hnot
  exact eq_false_of_ne_true (by simpa using hnot)

theorem trim_last (text : List Char) : ∀ c ∈ (trim text).getLast?, isJsSpace c = false := by
  intro c hc
  unfold trim at hc
  by_cases hnil : (text.dropWhile isJsSpace).rdropWhile isJsSpace = []
  · rw [hnil] at hc
    nomatch hc
  · have hlast := List.rdropWhile_last_not isJsSpace (text.dropWhile isJsSpace) hnil
    rw [List.getLast?_eq_some_getLast hnil] at hc
    rw [← Option.some.inj hc]
    exact eq_false_of_ne_true hlast

/-- Nothing is taken from a text without white space at its ends. -/
theorem trim_eq_self (hhead : ∀ c ∈ text.head?, isJsSpace c = false)
    (hlast : ∀ c ∈ text.getLast?, isJsSpace c = false) : trim text = text := by
  have hfront : text.dropWhile isJsSpace = text := by
    cases text with
    | nil => rfl
    | cons c rest => exact List.dropWhile_cons_of_neg (Bool.eq_false_iff.mp (hhead c rfl))
  unfold trim
  rw [hfront, List.rdropWhile_eq_self_iff]
  intro hne
  exact Bool.eq_false_iff.mp (hlast _ (by rw [List.getLast?_eq_some_getLast hne]; rfl))

theorem trim_trim (text : List Char) : trim (trim text) = trim text :=
  trim_eq_self (trim_head text) (trim_last text)

section Capitals

variable (p : Platform)

theorem toUpperCase_toUpperCase (text : List Char) :
    p.toUpperCase (p.toUpperCase text) = p.toUpperCase text := by
  unfold Platform.toUpperCase
  rw [List.flatMap_assoc]
  exact List.flatMap_congr fun c _ => p.upper_upper c

/-- The capital letters of a text without white space at its ends have none there either. -/
theorem trim_toUpperCase (text : List Char) :
    trim (p.toUpperCase (trim text)) = p.toUpperCase (trim text) := by
  refine trim_eq_self ?_ ?_
  · intro c hc
    cases htext : trim text with
    | nil =>
      rw [htext] at hc
      nomatch hc
    | cons first rest =>
      have hfirst : isJsSpace first = false := trim_head text first (by rw [htext]; rfl)
      obtain ⟨d, more, hd⟩ := List.exists_cons_of_ne_nil (p.upper_ne_nil first)
      have hform : p.toUpperCase (trim text) = d :: (more ++ rest.flatMap p.upper) := by
        rw [htext, Platform.toUpperCase, List.flatMap_cons, hd]
        rfl
      rw [hform] at hc
      rw [← Option.some.inj hc]
      exact p.upper_space first hfirst d (hd ▸ List.mem_cons_self)
  · intro c hc
    rcases List.eq_nil_or_concat (trim text) with htext | ⟨front, last, htext⟩
    · rw [htext] at hc
      nomatch hc
    · rw [List.concat_eq_append] at htext
      have hlast : isJsSpace last = false :=
        trim_last text last (by rw [htext, List.getLast?_append_cons]; rfl)
      have hform : p.toUpperCase (trim text) = front.flatMap p.upper ++ p.upper last := by
        rw [htext, Platform.toUpperCase, List.flatMap_append, List.flatMap_singleton]
      have hne := p.upper_ne_nil last
      rw [hform, List.getLast?_append_of_ne_nil _ hne, List.getLast?_eq_some_getLast hne] at hc
      rw [← Option.some.inj hc]
      exact p.upper_space last hlast _ (List.getLast_mem hne)

end Capitals

end Texts

/-! ## Parameters -/

section Params

variable {params : List (String × Option (List Char))} {name : String}
  {value : Option (List Char)}

theorem lookup_setAll_of_not_mem (h : name ∉ params.map Prod.fst) :
    List.lookup name.toList (setAll params) = none := by
  rw [List.lookup_eq_none_iff]
  intro entry hentry
  obtain ⟨param, hparam, hset⟩ := List.mem_filterMap.mp hentry
  obtain ⟨text, -, rfl⟩ := Option.map_eq_some_iff.mp hset
  rw [bne_iff_ne]
  intro heq
  exact h (List.mem_map.mpr ⟨param, hparam, (String.toList_inj.mp heq).symm⟩)

/-- A parameter is read as it was set, and as no text where it was not. -/
theorem queryText_setAll (hnames : (params.map Prod.fst).Nodup) (hmem : (name, value) ∈ params) :
    queryText (setAll params) name = value.getD [] := by
  induction params with
  | nil => nomatch hmem
  | cons param params ih =>
    rw [List.map_cons, List.nodup_cons] at hnames
    rcases List.mem_cons.mp hmem with rfl | hrest
    · cases value with
      | none =>
        have hskip : setAll ((name, none) :: params) = setAll params := rfl
        unfold queryText
        rw [hskip, lookup_setAll_of_not_mem hnames.1]
      | some text =>
        have hset : setAll ((name, some text) :: params) = (name.toList, text) :: setAll params :=
          rfl
        unfold queryText
        rw [hset, List.lookup_cons_self]
    · have hne : name.toList ≠ param.1.toList := by
        intro heq
        exact hnames.1 (String.toList_inj.mp heq ▸ List.mem_map.mpr ⟨_, hrest, rfl⟩)
      rw [← ih hnames.2 hrest]
      obtain ⟨other, set⟩ := param
      cases set with
      | none => rfl
      | some text =>
        have hset : setAll ((other, some text) :: params) = (other.toList, text) :: setAll params :=
          rfl
        unfold queryText
        rw [hset, List.lookup_cons, beq_false_of_ne hne]

/-- A text that is not empty is set. -/
theorem getD_nonempty (text : List Char) :
    (if text = [] then none else some text).getD [] = text := by
  split
  · next h => exact h.symm
  · rfl

theorem textOf_of_param (hnames : (params.map Prod.fst).Nodup) {text : List Char}
    (hmem : textParam name text ∈ params) : textOf (setAll params) name = trim text := by
  unfold textOf
  rw [queryText_setAll hnames hmem, getD_nonempty, trim_trim]

end Params

/-! ## Numbers -/

section Numbers

variable {value : List Char} {number fallback : Whole}

theorem normalizePositiveInt_nil (fallback : Whole) : normalizePositiveInt [] fallback = fallback :=
  rfl

theorem normalizePositiveInt_pos (h : 0 < fallback.value) :
    0 < (normalizePositiveInt value fallback).value := by
  unfold normalizePositiveInt
  split
  · exact h
  · split
    · exact h
    · omega

/-- A number that is written without an exponent is read again. -/
theorem normalizePositiveInt_numberText (hpos : 0 < number.value) (h : number.value < 10 ^ 21) :
    normalizePositiveInt (numberText number) fallback = number := by
  unfold normalizePositiveInt
  rw [parseInt_numberText h]
  exact if_neg (by omega)

variable {params : List (String × Option (List Char))}

theorem pageOf_of_param (hnames : (params.map Prod.fst).Nodup) (hpos : 0 < number.value)
    (h : number.value < 10 ^ 21) (hmem : pageParam number ∈ params) :
    pageOf (setAll params) = number := by
  unfold pageOf
  rw [queryText_setAll hnames hmem]
  have hone : DEFAULT_PAGE.value = 1 := rfl
  by_cases hmore : DEFAULT_PAGE.value < number.value
  · rw [if_pos hmore]
    exact normalizePositiveInt_numberText hpos h
  · rw [if_neg hmore]
    exact (normalizePositiveInt_nil _).trans (Whole.ext_value (by omega))

theorem perPageOf_of_param (hnames : (params.map Prod.fst).Nodup) (hpos : 0 < number.value)
    (h : number.value < 10 ^ 21) (hmem : perPageParam number ∈ params) :
    perPageOf (setAll params) = number := by
  unfold perPageOf
  rw [queryText_setAll hnames hmem]
  by_cases hother : number ≠ DEFAULT_PER_PAGE
  · rw [if_pos hother]
    exact normalizePositiveInt_numberText hpos h
  · rw [if_neg hother]
    exact (not_not.mp hother).symm

/-- The paging of a call is read again. -/
theorem paging_read {paging : Paging} (hplain : paging.IsPlain)
    (hnames : (params.map Prod.fst).Nodup)
    (hparams : ∀ param ∈ pagingParams paging, param ∈ params) :
    pageOf (setAll params) = paging.normalizedPage ∧
      perPageOf (setAll params) = paging.normalizedPerPage :=
  ⟨pageOf_of_param hnames (normalizePositiveInt_pos (by decide)) hplain.1
      (hparams _ List.mem_cons_self),
    perPageOf_of_param hnames (normalizePositiveInt_pos (by decide)) hplain.2
      (hparams _ (List.mem_cons_of_mem _ List.mem_cons_self))⟩

end Numbers

/-! ## Paths of the site -/

/-- What stands first behind `/web` or `/web/app`. -/
def siteNames : List (List Char) :=
  names ["me", "time-management", "system", "search", "messages", "projects", "work-items",
    "requirements", "tasks", "bugs"]

/-- The letters and marks of the names. -/
def isNameChar (c : Char) : Bool := c.isAlphanum || c = '-'

section Site

variable {p : Platform} {owner : Owner} {first : List Char} {rest : List (List Char)}
  {entries : Query} {fragment : List Char} {view : View}

theorem stays_of_name {segment : List Char} (h : segment.all isNameChar = true) :
    StaysSegment segment := by
  have hall : ∀ {p : Char → Bool}, ((List.range 128).all fun n =>
      !isNameChar (Char.ofNat n) || p (Char.ofNat n)) = true → ∀ c ∈ segment, p c = true := by
    intro p hp c hc
    refine of_ascii (fun d hd => ?_) hp (List.all_eq_true.mp h c hc)
    rcases Bool.or_eq_true_iff.mp hd with hletter | hmark
    · exact ascii_of_isAlphanum hletter
    · rw [of_decide_eq_true hmark]
      decide
  exact stays_of_chars (hall (by decide)) (@hall (fun c => c.toLower != '.' && c.toLower != '%')
    (by decide))

theorem stays_of_names {texts : List String}
    (h : ((names texts).all fun name => name.all isNameChar) = true) :
    ∀ s ∈ names texts, StaysSegment s :=
  fun s hs => stays_of_name (List.all_eq_true.mp h s hs)

theorem siteName_stays (h : first ∈ siteNames) : StaysSegment first ∧ first ≠ [] := by
  have hall : (siteNames.all fun name => name.all isNameChar && name != []) = true := by decide
  have hone := List.all_eq_true.mp hall first h
  rw [Bool.and_eq_true, bne_iff_ne] at hone
  exact ⟨stays_of_name hone.1, hone.2⟩

theorem owner_stays (owner : Owner) : ∀ s ∈ owner.segments, StaysSegment s := by
  cases owner with
  | web => exact @stays_of_names ["web"] (by decide)
  | app => exact @stays_of_names ["web", "app"] (by decide)

theorem site_stays (owner : Owner) (hfirst : first ∈ siteNames)
    (hrest : ∀ s ∈ rest, StaysSegment s) :
    ∀ s ∈ owner.segments ++ first :: rest, StaysSegment s := by
  intro s hs
  rcases List.mem_append.mp hs with howner | hpath
  · exact owner_stays owner s howner
  · rcases List.mem_cons.mp hpath with rfl | hmem
    · exact (siteName_stays hfirst).1
    · exact hrest s hmem

theorem normalizeOwner_sitePath (h : first ∈ siteNames) :
    normalizeOwner (sitePath owner (first :: rest)) = owner := by
  cases owner with
  | app => rfl
  | web =>
    simp only [siteNames, names, List.map_cons, List.map_nil, List.mem_cons, List.not_mem_nil,
      or_false] at h
    rcases h with rfl | rfl | rfl | rfl | rfl | rfl | rfl | rfl | rfl | rfl <;> rfl

theorem behindRoot_sitePath (hfirst : first ∈ siteNames)
    (hrest : ∀ s ∈ rest, StaysSegment s) :
    behindRoot (sitePath owner (first :: rest)) = some (first :: rest) := by
  have hslash : ∀ s ∈ owner.segments ++ first :: rest, ∀ c ∈ s, (c == '/') = false := by
    intro s hs c hc
    have hslash := (isSegmentChar_eq ((site_stays owner hfirst hrest s hs).chars c hc)).1
    rw [beq_eq_false_iff_ne]
    rintro rfl
    exact absurd hslash (by decide)
  have happ : first ≠ "app".toList := by
    rintro rfl
    exact absurd hfirst (by decide)
  have hsplit : (sitePath owner (first :: rest)).splitOnP (· == '/') =
      [] :: (owner.segments ++ first :: rest) := by
    have hparts := @splitOnP_pathText (owner.segments ++ first :: rest) (· == '/') (by decide) []
      (by
        intro s hs
        rcases List.mem_cons.mp hs with rfl | hmem
        · exact fun c hc => nomatch hc
        · exact hslash s hmem)
    exact hparts
  unfold behindRoot
  rw [hsplit]
  cases owner with
  | app => rfl
  | web =>
    show (if "web".toList = "web".toList then _ else none) = _
    rw [if_pos rfl]
    exact if_neg fun h => happ (Option.some.inj h)

/-- The query of a written path. -/
theorem searchParams_serialize (p : Platform) (entries : Query) :
    searchParams p (behindMark '?' (urlencodedSerialize entries)) = entries := by
  have hread := urlencodedParse_serialize p.utf8Decode_text entries
  by_cases hnone : urlencodedSerialize entries = []
  · rw [hnone]
    rw [hnone] at hread
    exact hread
  · rw [behindMark_cons hnone]
    exact hread

theorem serialize_chars (entries : Query) :
    ∀ c ∈ urlencodedSerialize entries, isQueryChar c = true := by
  refine urlencodedSerialize_all (by decide) (fun c hc => ?_) entries
  refine of_ascii (fun d hd => ?_) (by decide : ((List.range 128).all fun n =>
    !isFormChar (Char.ofNat n) || isQueryChar (Char.ofNat n)) = true) hc
  have hmark : ∀ e : Char, e.toNat < 128 → d = e → d.toNat < 128 := by
    rintro e he rfl
    exact he
  simp only [isFormChar, Bool.or_eq_true, decide_eq_true_eq] at hd
  rcases hd with (((((h | h) | h) | h) | h) | h) | h
  · exact ascii_of_isAlphanum h
  · exact hmark _ (by decide) h
  · exact hmark _ (by decide) h
  · exact hmark _ (by decide) h
  · exact hmark _ (by decide) h
  · exact hmark _ (by decide) h
  · exact hmark _ (by decide) h

/-- A path of the site is split, and its segments and its query are what was written. -/
theorem reads_sitePath (hfirst : first ∈ siteNames) (hrest : ∀ s ∈ rest, StaysSegment s)
    (hfragment : ∀ c ∈ fragment, isFragmentChar c = true)
    (hview : viewOf p entries (first :: rest) (behindMark '#' fragment) = some (.ok view)) :
    Reads p owner (sitePath owner (first :: rest) ++
      pathRest (urlencodedSerialize entries) fragment) view := by
  have hstays := site_stays owner hfirst hrest
  have hsplit : ∃ head tail, owner.segments ++ first :: rest = head :: tail ∧ head ≠ [] := by
    cases owner with
    | web => exact ⟨_, _, rfl, by decide⟩
    | app => exact ⟨_, _, rfl, by decide⟩
  obtain ⟨head, tail, hsegments, hhead⟩ := hsplit
  rw [hsegments] at hstays
  obtain ⟨url, hurl, hpath, hsearch, hhash⟩ := @parseUrl_parts p.readHost localBase tail
    (urlencodedSerialize entries) fragment head hhead hstays (serialize_chars entries) hfragment
  rw [← hsegments] at hurl hpath
  refine ⟨url, hurl, ?_⟩
  unfold parseAppRoute
  dsimp only
  rw [hsearch, hhash, searchParams_serialize, hpath]
  have hroot : behindRoot (pathText (owner.segments ++ first :: rest)) = some (first :: rest) :=
    behindRoot_sitePath hfirst hrest
  have howner : normalizeOwner (pathText (owner.segments ++ first :: rest)) = owner :=
    normalizeOwner_sitePath hfirst
  rw [hroot, howner, Option.bind_some, hview]
  rfl

/-- The same of a path with a query and without a fragment. -/
theorem reads_withQuery {params : List (String × Option (List Char))} (hfirst : first ∈ siteNames)
    (hrest : ∀ s ∈ rest, StaysSegment s)
    (hview : viewOf p (setAll params) (first :: rest) [] = some (.ok view)) :
    Reads p owner (withQuery (sitePath owner (first :: rest)) params) view := by
  have hread := @reads_sitePath p owner first rest (setAll params) [] view hfirst hrest
    (fun c hc => nomatch hc) hview
  unfold pathRest at hread
  rwa [behindMark, List.append_nil] at hread

theorem reads_plain (hfirst : first ∈ siteNames) (hrest : ∀ s ∈ rest, StaysSegment s)
    (hview : viewOf p [] (first :: rest) [] = some (.ok view)) :
    Reads p owner (sitePath owner (first :: rest)) view := by
  have hread := @reads_withQuery p owner first rest view [] hfirst hrest hview
  have hpath : withQuery (sitePath owner (first :: rest)) [] = sitePath owner (first :: rest) :=
    List.append_nil _
  rwa [hpath] at hread

end Site

/-! ## Lists -/

section Lists

variable {p : Platform} (owner : Owner) {paging : Paging}

/-- A table of paths with a page of entries each. -/
theorem reads_paged {first : List Char} {rest : List (List Char)} {view : Whole → Whole → View}
    (hplain : paging.IsPlain) (hfirst : first ∈ siteNames) (hrest : ∀ s ∈ rest, StaysSegment s)
    (hview : ∀ query, viewOf p query (first :: rest) [] =
      some (.ok (view (pageOf query) (perPageOf query)))) :
    Reads p owner (withQuery (sitePath owner (first :: rest)) (pagingParams paging))
      (view paging.normalizedPage paging.normalizedPerPage) := by
  have hnames : ((pagingParams paging).map Prod.fst).Nodup := by
    show ["page", "per_page"].Nodup
    decide
  obtain ⟨hpage, hperPage⟩ := paging_read hplain hnames fun _ h => h
  refine reads_withQuery hfirst hrest ?_
  rw [hview, hpage, hperPage]

theorem reads_systemUsers (hplain : paging.IsPlain) :
    Reads p owner (buildSystemUsersPath owner paging)
      (.systemUsers paging.normalizedPage paging.normalizedPerPage) :=
  @reads_paged p owner paging "system".toList (names ["users"]) .systemUsers hplain (by decide)
    (stays_of_names (by decide)) fun _ => rfl

theorem reads_systemStorage (hplain : paging.IsPlain) :
    Reads p owner (buildSystemStoragePath owner paging)
      (.systemStorage paging.normalizedPage paging.normalizedPerPage) :=
  @reads_paged p owner paging "system".toList (names ["storage"]) .systemStorage hplain (by decide)
    (stays_of_names (by decide)) fun _ => rfl

theorem reads_systemReleases (hplain : paging.IsPlain) :
    Reads p owner (buildSystemReleasesPath owner paging)
      (.systemReleases paging.normalizedPage paging.normalizedPerPage) :=
  @reads_paged p owner paging "system".toList (names ["releases"]) .systemReleases hplain
    (by decide) (stays_of_names (by decide)) fun _ => rfl

theorem reads_systemPermissions (q : List Char) :
    Reads p owner (buildSystemPermissionsPath owner q) (.systemPermissions (trim q)) := by
  have hnames : ([textParam "q" q].map Prod.fst).Nodup := List.nodup_singleton _
  have hq : textOf (setAll [textParam "q" q]) "q" = trim q :=
    textOf_of_param hnames List.mem_cons_self
  refine @reads_withQuery p owner "system".toList (names ["permissions"]) _ _ (by decide)
    (stays_of_names (by decide)) ?_
  rw [← hq]
  rfl

/-- A text in front of the page. -/
theorem textPaging_read {name : String} {text : List Char} (hplain : paging.IsPlain)
    (hnames : [name, "page", "per_page"].Nodup) :
    textOf (setAll (textParam name text :: pagingParams paging)) name = trim text ∧
      pageOf (setAll (textParam name text :: pagingParams paging)) = paging.normalizedPage ∧
      perPageOf (setAll (textParam name text :: pagingParams paging)) =
        paging.normalizedPerPage := by
  have hall : ((textParam name text :: pagingParams paging).map Prod.fst).Nodup := hnames
  exact ⟨textOf_of_param hall List.mem_cons_self,
    paging_read hplain hall fun _ h => List.mem_cons_of_mem _ h⟩

theorem reads_systemRoles (role : List Char) (hplain : paging.IsPlain) :
    Reads p owner (buildSystemRolesPath owner role paging)
      (.systemRoles (trim role) paging.normalizedPage paging.normalizedPerPage) := by
  obtain ⟨hrole, hpage, hperPage⟩ := @textPaging_read paging "role" role hplain (by decide)
  refine @reads_withQuery p owner "system".toList (names ["roles"]) _ _ (by decide)
    (stays_of_names (by decide)) ?_
  rw [← hrole, ← hpage, ← hperPage]
  rfl

theorem reads_search (q : List Char) (hplain : paging.IsPlain) :
    Reads p owner (buildSearchPath owner q paging)
      (.search (trim q) paging.normalizedPage paging.normalizedPerPage) := by
  obtain ⟨hq, hpage, hperPage⟩ := @textPaging_read paging "q" q hplain (by decide)
  refine @reads_withQuery p owner "search".toList [] _ _ (by decide) (fun _ h => nomatch h) ?_
  rw [← hq, ← hpage, ← hperPage]
  rfl

theorem normalizeFilter_text (filter : Filter) :
    normalizeFilter filter.text.toList = filter := by
  cases filter with
  | all => decide
  | unread => decide
  | pending => decide
  | read => decide

theorem reads_messages (filter : List Char) (hplain : paging.IsPlain) :
    Reads p owner (buildMessagesPath owner filter paging)
      (.messages (normalizeFilter filter) paging.normalizedPage paging.normalizedPerPage) := by
  unfold buildMessagesPath
  dsimp only
  obtain ⟨params, hparams⟩ : ∃ params : List (String × Option (List Char)),
      (("filter", if normalizeFilter filter ≠ .all
        then some (normalizeFilter filter).text.toList else none) :: pagingParams paging) =
          params := ⟨_, rfl⟩
  have hnames : (params.map Prod.fst).Nodup := by
    rw [← hparams]
    show ["filter", "page", "per_page"].Nodup
    decide
  have hfilter : filterOf (setAll params) = normalizeFilter filter := by
    unfold filterOf
    rw [queryText_setAll hnames (hparams ▸ List.mem_cons_self)]
    by_cases hall : normalizeFilter filter = .all
    · rw [if_neg (not_not.mpr hall), hall]
      rfl
    · rw [if_pos hall]
      exact normalizeFilter_text _
  obtain ⟨hpage, hperPage⟩ := paging_read hplain hnames fun param h =>
    hparams ▸ List.mem_cons_of_mem _ h
  rw [hparams]
  refine @reads_withQuery p owner "messages".toList [] _ _ (by decide) (fun _ h => nomatch h) ?_
  rw [← hfilter, ← hpage, ← hperPage]
  rfl

theorem trim_statusFilter (status : List Char) :
    trim (statusFilter status) = statusFilter status := by
  unfold statusFilter
  split
  · rfl
  · exact trim_trim status

theorem reads_projects (status q : List Char) (hplain : paging.IsPlain) :
    Reads p owner (buildProjectsPath owner status q paging)
      (.projects (statusFilter status) (trim q) paging.normalizedPage
        paging.normalizedPerPage) := by
  unfold buildProjectsPath
  obtain ⟨params, hparams⟩ : ∃ params : List (String × Option (List Char)),
      (("status", if statusFilter status = [] then none else some (statusFilter status)) ::
        textParam "q" q :: pagingParams paging) = params := ⟨_, rfl⟩
  have hnames : (params.map Prod.fst).Nodup := by
    rw [← hparams]
    show ["status", "q", "page", "per_page"].Nodup
    decide
  have hstatus : textOf (setAll params) "status" = statusFilter status := by
    unfold textOf
    rw [queryText_setAll hnames (hparams ▸ List.mem_cons_self), getD_nonempty, trim_statusFilter]
  have hq : textOf (setAll params) "q" = trim q :=
    textOf_of_param hnames (hparams ▸ List.mem_cons_of_mem _ List.mem_cons_self)
  obtain ⟨hpage, hperPage⟩ := paging_read hplain hnames fun param h =>
    hparams ▸ List.mem_cons_of_mem _ (List.mem_cons_of_mem _ h)
  rw [hparams]
  refine @reads_withQuery p owner "projects".toList [] _ _ (by decide) (fun _ h => nomatch h) ?_
  rw [← hstatus, ← hq, ← hpage, ← hperPage]
  rfl

theorem reads_systemAudit (filters : AuditFilters) (hplain : paging.IsPlain) :
    Reads p owner (buildSystemAuditPath owner filters paging)
      (.systemAudit (trim filters.actor) (trim filters.action) (trim filters.targetType)
        (trim filters.targetId) paging.normalizedPage paging.normalizedPerPage) := by
  unfold buildSystemAuditPath
  obtain ⟨params, hparams⟩ : ∃ params : List (String × Option (List Char)),
      [textParam "actor" filters.actor, textParam "action" filters.action,
        textParam "target_type" filters.targetType, textParam "target_id" filters.targetId] ++
          pagingParams paging = params := ⟨_, rfl⟩
  have hnames : (params.map Prod.fst).Nodup := by
    rw [← hparams]
    show ["actor", "action", "target_type", "target_id", "page", "per_page"].Nodup
    decide
  have hfront : ∀ param ∈ [textParam "actor" filters.actor, textParam "action" filters.action,
      textParam "target_type" filters.targetType, textParam "target_id" filters.targetId],
      param ∈ params := fun param h => hparams ▸ List.mem_append_left _ h
  have hactor : textOf (setAll params) "actor" = trim filters.actor :=
    textOf_of_param hnames (hfront _ (by simp only [List.mem_cons, true_or]))
  have haction : textOf (setAll params) "action" = trim filters.action :=
    textOf_of_param hnames (hfront _ (by simp only [List.mem_cons, true_or, or_true]))
  have htype : textOf (setAll params) "target_type" = trim filters.targetType :=
    textOf_of_param hnames (hfront _ (by simp only [List.mem_cons, true_or, or_true]))
  have hid : textOf (setAll params) "target_id" = trim filters.targetId :=
    textOf_of_param hnames (hfront _ (by simp only [List.mem_cons, true_or, or_true]))
  obtain ⟨hpage, hperPage⟩ := paging_read hplain hnames fun param h =>
    hparams ▸ List.mem_append_right _ h
  rw [hparams]
  refine @reads_withQuery p owner "system".toList (names ["audit"]) _ _ (by decide)
    (stays_of_names (by decide)) ?_
  rw [← hactor, ← haction, ← htype, ← hid, ← hpage, ← hperPage]
  rfl

/-- What is read of the query of a list of work items. -/
theorem workItemList_read (p : Platform) (args : WorkItemArgs) (hplain : args.toPaging.IsPlain)
    (hcycle : args.normalizedCycleId.value < 10 ^ 21) :
    workItemListOf p (setAll (buildWorkItemQuery p args)) = args.list p := by
  obtain ⟨params, hparams⟩ : ∃ params : List (String × Option (List Char)),
      buildWorkItemQuery p args = params := ⟨_, rfl⟩
  rw [hparams]
  have hnames : (params.map Prod.fst).Nodup := by
    rw [← hparams]
    show ["q", "status", "priority", "assignee_username", "project_key", "cycle_id", "sort",
      "page", "per_page"].Nodup
    decide
  have hall : ∀ param, param ∈ buildWorkItemQuery p args → param ∈ params := fun param h =>
    hparams ▸ h
  unfold buildWorkItemQuery at hall
  have htext : ∀ {name : String} {text : List Char},
      textParam name text ∈ params → textOf (setAll params) name = trim text :=
    fun h => textOf_of_param hnames h
  have hq := htext (hall (textParam "q" args.q)
    (by simp only [List.mem_append, List.mem_cons, true_or]))
  have hstatus := htext (hall (textParam "status" args.status)
    (by simp only [List.mem_append, List.mem_cons, true_or, or_true]))
  have hassignee := htext (hall (textParam "assignee_username" args.assigneeUsername)
    (by simp only [List.mem_append, List.mem_cons, true_or, or_true]))
  have hproject := htext (hall (textParam "project_key" args.projectKey)
    (by simp only [List.mem_append, List.mem_cons, true_or, or_true]))
  have hsort := htext (hall (textParam "sort" args.sort)
    (by simp only [List.mem_append, List.mem_cons, true_or, or_true]))
  have hpriority : textOf (setAll params) "priority" = p.toUpperCase (trim args.priority) := by
    unfold textOf
    rw [queryText_setAll hnames (hall ("priority", if trim args.priority = [] then none
      else some (p.toUpperCase (trim args.priority)))
        (by simp only [List.mem_append, List.mem_cons, true_or, or_true]))]
    by_cases hnone : trim args.priority = []
    · rw [if_pos hnone, hnone]
      rfl
    · rw [if_neg hnone]
      exact trim_toUpperCase p args.priority
  have hid : normalizePositiveInt (queryText (setAll params) "cycle_id") noId =
      args.normalizedCycleId := by
    rw [queryText_setAll hnames (hall ("cycle_id", if 0 < args.normalizedCycleId.value
      then some (numberText args.normalizedCycleId) else none)
        (by simp only [List.mem_append, List.mem_cons, true_or, or_true]))]
    by_cases hset : 0 < args.normalizedCycleId.value
    · rw [if_pos hset]
      exact normalizePositiveInt_numberText hset hcycle
    · rw [if_neg hset]
      refine (normalizePositiveInt_nil noId).trans (Whole.ext_value ?_)
      have hzero : noId.value = 0 := rfl
      omega
  obtain ⟨hpage, hperPage⟩ := paging_read hplain hnames fun param h =>
    hall param (List.mem_append_right _ h)
  unfold workItemListOf WorkItemArgs.list
  rw [hq, hstatus, hpriority, toUpperCase_toUpperCase, hassignee, hproject, hid, hsort, hpage,
    hperPage]

theorem reads_workItemList {args : WorkItemArgs} {itemType : WorkItemType}
    (hmeta : routeMetaForItemType args.itemType = some itemType)
    (hcycle : args.normalizedCycleId.value < 10 ^ 21) (hplain : args.toPaging.IsPlain) :
    ∃ path, buildWorkItemListPath p owner args = some path ∧
      Reads p owner path (.workItems itemType (args.list p)) := by
  unfold buildWorkItemListPath
  dsimp only
  rw [hmeta]
  refine ⟨_, rfl, ?_⟩
  rw [← workItemList_read p args hplain hcycle]
  cases itemType with
  | requirement =>
    exact @reads_withQuery p owner "requirements".toList [] _ _ (by decide)
      (fun _ h => nomatch h) rfl
  | task =>
    exact @reads_withQuery p owner "tasks".toList [] _ _ (by decide) (fun _ h => nomatch h) rfl
  | bug =>
    exact @reads_withQuery p owner "bugs".toList [] _ _ (by decide) (fun _ h => nomatch h) rfl

end Lists

/-! ## Pages with a key -/

section Keys

variable {p : Platform} (owner : Owner) {query : Query} {key text : List Char}
  {rest : List (List Char)} {page : ProjectPage} {hash : List Char}

theorem decodeKey_encoded (text : List Char) : decodeKey (encodeURIComponent text) = .ok text := by
  unfold decodeKey encodeURIComponent
  rw [decodeURIComponent_percentEncode (by decide)]

theorem rolePermissionsKey_of_project : rolePermissionsKey ("projects".toList :: rest) = none := by
  unfold rolePermissionsKey
  split
  · next heq =>
    obtain ⟨rfl, -⟩ := List.cons.inj heq
    rfl
  · rfl

theorem viewOf_project (hkey : key ≠ []) (hpage : projectPage rest = some page)
    (hdecode : decodeKey key = .ok text) :
    viewOf p query ("projects".toList :: key :: rest) hash =
      some (.ok (projectPageView query text page)) := by
  have hroles : rolesView query ("projects".toList :: key :: rest) = none := by
    unfold rolesView
    rw [rolePermissionsKey_of_project]
    rfl
  have hmatch : projectMatch ("projects".toList :: key :: rest) = some (key, page) := by
    show (if _ ∧ _ then _ else none) = _
    rw [if_pos ⟨rfl, hkey⟩, hpage]
    rfl
  have hview : projectView query ("projects".toList :: key :: rest) =
      some (.ok (projectPageView query text page)) := by
    unfold projectView
    rw [hmatch, Option.map_some, hdecode]
    rfl
  unfold viewOf
  rw [hroles, hview]
  rfl

/-- A page of a project, below the path of the project. -/
theorem reads_projectPage {more : List (List Char)} {tail : List Char} (hkey : text ≠ [])
    (hsingle : text ≠ ".".toList) (hdouble : text ≠ "..".toList)
    (hmore : ∀ s ∈ more, StaysSegment s) (htail : tail = pathText more)
    (hpage : projectPage more = some page) :
    Reads p owner (sitePath owner (names ["projects"] ++ [encodeURIComponent text]) ++ tail)
      (projectPageView [] text page) := by
  have hpath : sitePath owner (names ["projects"] ++ [encodeURIComponent text]) ++ tail =
      sitePath owner ("projects".toList :: encodeURIComponent text :: more) := by
    rw [htail]
    unfold sitePath pathText
    rw [← List.flatMap_append, List.append_assoc]
    rfl
  rw [hpath]
  refine reads_plain (by decide) ?_ (viewOf_project (encodeURIComponent_ne_nil hkey) hpage
    (decodeKey_encoded text))
  intro s hs
  rcases List.mem_cons.mp hs with rfl | hmem
  · exact encodeURIComponent_stays hsingle hdouble
  · exact hmore s hmem

theorem default_page : Paging.normalizedPage {} = DEFAULT_PAGE := by
  have htext : "1".toList = numberText DEFAULT_PAGE := by decide +kernel
  show normalizePositiveInt "1".toList DEFAULT_PAGE = DEFAULT_PAGE
  rw [htext]
  exact normalizePositiveInt_numberText (by decide) (by decide)

theorem default_perPage : Paging.normalizedPerPage {} = DEFAULT_PER_PAGE := by
  have htext : "10".toList = numberText DEFAULT_PER_PAGE := by decide +kernel
  show normalizePositiveInt "10".toList DEFAULT_PER_PAGE = DEFAULT_PER_PAGE
  rw [htext]
  exact normalizePositiveInt_numberText (by decide) (by decide)

theorem default_plain : Paging.IsPlain {} := by
  unfold Paging.IsPlain
  rw [default_page, default_perPage]
  decide

theorem reads_allProjects : Reads p owner (buildProjectsPath owner [] [] {}) allProjects := by
  have hread := @reads_projects p owner {} [] [] default_plain
  rw [default_page, default_perPage] at hread
  exact hread

theorem reads_projectDetail {projectKey tab : List Char} (hplain : IsPlainKey projectKey)
    (hkey : trim projectKey ≠ []) :
    Reads p owner (buildProjectDetailPath owner projectKey tab)
      (.projectDetail (trim projectKey) (normalizeTab tab)) := by
  unfold buildProjectDetailPath
  dsimp only
  rw [if_neg hkey]
  by_cases hinfo : normalizeTab tab = .info
  · rw [if_pos hinfo, hinfo]
    have hread := @reads_projectPage p owner (trim projectKey) .detail [] [] hkey hplain.1 hplain.2
      (fun _ h => nomatch h) rfl rfl
    rwa [List.append_nil] at hread
  · rw [if_neg hinfo, List.append_assoc]
    have hquery : "?tab=".toList ++ (normalizeTab tab).text.toList =
        behindMark '?' (urlencodedSerialize
          (setAll [("tab", some (normalizeTab tab).text.toList)])) := by
      cases normalizeTab tab with
      | info => decide
      | members => decide
      | cycles => decide
      | time => decide
    have hread : normalizeTab (normalizeTab tab).text.toList = normalizeTab tab := by
      cases normalizeTab tab with
      | info => decide
      | members => decide
      | cycles => decide
      | time => decide
    rw [hquery]
    refine @reads_withQuery p owner "projects".toList [encodeURIComponent (trim projectKey)] _ _
      (by decide) ?_ ?_
    · intro s hs
      rw [List.mem_singleton.mp hs]
      exact encodeURIComponent_stays hplain.1 hplain.2
    · have hget := @queryText_setAll [("tab", some (normalizeTab tab).text.toList)] "tab" _
        (List.nodup_singleton _) List.mem_cons_self
      rw [viewOf_project (encodeURIComponent_ne_nil hkey) rfl (decodeKey_encoded _),
        projectPageView, hget, Option.getD_some, hread]

theorem reads_projectResourceLibrary {projectKey : List Char} (hplain : IsPlainKey projectKey)
    (hkey : trim projectKey ≠ []) :
    Reads p owner (buildProjectResourceLibraryPath owner projectKey)
      (.projectResourceLibrary (trim projectKey)) := by
  unfold buildProjectResourceLibraryPath
  dsimp only
  rw [if_neg hkey]
  exact @reads_projectPage p owner (trim projectKey) .resources (names ["resources"]) _ hkey
    hplain.1 hplain.2 (stays_of_names (by decide)) rfl rfl

/-- The path of a project that the other pages stand below. -/
theorem projectDetailPath_info {projectKey : List Char} (hkey : trim projectKey ≠ []) :
    buildProjectDetailPath owner (trim projectKey) "info".toList =
      sitePath owner (names ["projects"] ++ [encodeURIComponent (trim projectKey)]) := by
  unfold buildProjectDetailPath
  rw [trim_trim]
  exact if_neg hkey

theorem reads_projectPersonalAnalysis {projectKey : List Char} (hplain : IsPlainKey projectKey)
    (hkey : trim projectKey ≠ []) :
    Reads p owner (buildProjectPersonalAnalysisPath owner projectKey)
      (.projectPersonalAnalysis (trim projectKey)) := by
  unfold buildProjectPersonalAnalysisPath
  dsimp only
  rw [if_neg hkey, projectDetailPath_info owner hkey]
  exact @reads_projectPage p owner (trim projectKey) .myAnalysis (names ["my-analysis"]) _ hkey
    hplain.1 hplain.2 (stays_of_names (by decide)) rfl rfl

/-- An id that the builders write is safe, and at least one. -/
theorem safeId_eq_some {id : Option Whole} {number : Whole} (h : safeId id = some number) :
    id = some number ∧ 0 < number.value ∧ number.value < 10 ^ 21 := by
  obtain ⟨hid, hsafe⟩ := Option.filter_eq_some_iff.mp h
  rw [decide_eq_true_eq] at hsafe
  have hmax : maxSafeInteger = 2 ^ 53 - 1 := rfl
  exact ⟨hid, by omega, by omega⟩

theorem isDigits_numberText {number : Whole} (h : number.value < 10 ^ 21) :
    isDigits (numberText number) = true := by
  obtain ⟨hne, hdigits⟩ := numberText_digits h
  unfold isDigits
  rw [List.isEmpty_eq_false_iff.mpr hne, List.all_eq_true.mpr hdigits]
  rfl

/-- A page of a project with an id. -/
theorem reads_projectId {projectKey : List Char} {kind : String} {number : Whole}
    {idPage : List Char → ProjectPage} {view : List Char → Whole → View}
    (hplain : IsPlainKey projectKey) (hkey : trim projectKey ≠ [])
    (hkind : ((names [kind]).all fun name => name.all isNameChar) = true)
    (hpos : 0 < number.value) (hsmall : number.value < 10 ^ 21)
    (hpage : ∀ digits, isDigits digits = true →
      projectPage [kind.toList, digits] = some (idPage digits))
    (hview : ∀ projectKey digits, projectPageView [] projectKey (idPage digits) =
      view projectKey (normalizePositiveInt digits noId)) :
    Reads p owner (buildProjectDetailPath owner (trim projectKey) "info".toList ++
      ('/' :: kind.toList ++ ['/']) ++ numberText number) (view (trim projectKey) number) := by
  have hread := @reads_projectPage p owner (trim projectKey) (idPage (numberText number))
    [kind.toList, numberText number] ('/' :: kind.toList ++ ['/'] ++ numberText number) hkey
    hplain.1 hplain.2 ?_ ?_ (hpage _ (isDigits_numberText hsmall))
  · rw [projectDetailPath_info owner hkey, List.append_assoc]
    rwa [hview, normalizePositiveInt_numberText hpos hsmall] at hread
  · intro s hs
    rcases List.mem_cons.mp hs with rfl | hid
    · exact stays_of_names hkind _ List.mem_cons_self
    · rw [List.mem_singleton.mp hid]
      exact stays_of_isDigit (numberText_digits hsmall).2
  · show _ = '/' :: kind.toList ++ ('/' :: numberText number ++ [])
    rw [List.append_nil, List.append_assoc]
    rfl

theorem reads_projectCycleDetail {projectKey : List Char} {cycleId : Option Whole} {number : Whole}
    (hplain : IsPlainKey projectKey) (hkey : trim projectKey ≠ [])
    (hid : safeId cycleId = some number) :
    Reads p owner (buildProjectCycleDetailPath owner projectKey cycleId)
      (.projectCycleDetail (trim projectKey) number) := by
  obtain ⟨-, hpos, hsmall⟩ := safeId_eq_some hid
  unfold buildProjectCycleDetailPath
  rw [hid]
  dsimp only
  rw [if_neg hkey]
  exact @reads_projectId p owner projectKey "cycles" number .cycle .projectCycleDetail hplain hkey
    (by decide) hpos hsmall (fun digits h => by
      show (if _ ∧ isDigits digits = true then _ else _) = _
      rw [h]
      rfl) fun _ _ => rfl

theorem reads_projectResourceDetail {projectKey : List Char} {resourceId : Option Whole}
    {number : Whole} (hplain : IsPlainKey projectKey) (hkey : trim projectKey ≠ [])
    (hid : safeId resourceId = some number) :
    Reads p owner (buildProjectResourceDetailPath owner projectKey resourceId)
      (.projectResourceDetail (trim projectKey) number) := by
  obtain ⟨-, hpos, hsmall⟩ := safeId_eq_some hid
  unfold buildProjectResourceDetailPath
  rw [hid]
  dsimp only
  rw [if_neg hkey]
  exact @reads_projectId p owner projectKey "resources" number .resource .projectResourceDetail
    hplain hkey (by decide) hpos hsmall (fun digits h => by
      show (if _ ∧ isDigits digits = true then _ else _) = _
      rw [h]
      rfl) fun _ _ => rfl

/-! ## Work items -/

theorem viewOf_workItem (hkey : key ≠ []) (hdecode : decodeKey key = .ok text) :
    viewOf p query ["work-items".toList, key] hash =
      some (.ok (.workItemDetail text (commentOf hash))) := by
  have hview : workItemView ["work-items".toList, key] hash =
      some (.ok (.workItemDetail text (commentOf hash))) := by
    unfold workItemView
    have hfound : workItemKey ["work-items".toList, key] = some key := by
      show (if _ ∧ _ then _ else none) = _
      rw [if_pos ⟨rfl, hkey⟩]
    rw [hfound, Option.map_some, hdecode]
    rfl
  unfold viewOf
  rw [hview]
  rfl

/-- What the fragment of a comment is read as. -/
theorem commentOf_written {number : Whole} (hpos : 0 < number.value)
    (hsmall : number.value < 10 ^ 21) :
    commentOf ('#' :: ("comment-".toList ++ numberText number)) = some number := by
  have hne : number ≠ noId := by
    rintro rfl
    exact absurd hpos (by decide)
  show (if isDigits (numberText number) = true then
    (some (normalizePositiveInt (numberText number) noId)).filter fun commentId =>
      commentId ≠ noId else none) = some number
  rw [if_pos (isDigits_numberText hsmall), normalizePositiveInt_numberText hpos hsmall]
  exact Option.filter_some_pos (decide_eq_true hne)

theorem reads_workItemDetail {itemKey : List Char} {commentId : Option Whole}
    (hplain : IsPlainKey itemKey) (hkey : trim itemKey ≠ [])
    (hsmall : ∀ comment ∈ commentId, comment.value < 10 ^ 21) :
    ∃ path, buildWorkItemDetailPath p owner itemKey commentId = some path ∧
      Reads p owner path (.workItemDetail (trim itemKey)
        (commentId.filter fun comment => comment ≠ noId)) := by
  have hstays : ∀ s ∈ [encodeURIComponent (trim itemKey)], StaysSegment s := by
    intro s hs
    rw [List.mem_singleton.mp hs]
    exact encodeURIComponent_stays hplain.1 hplain.2
  have hbare : Reads p owner
      (sitePath owner (names ["work-items"] ++ [encodeURIComponent (trim itemKey)]))
      (.workItemDetail (trim itemKey) none) :=
    @reads_plain p owner "work-items".toList [encodeURIComponent (trim itemKey)] _ (by decide)
      hstays (viewOf_workItem (encodeURIComponent_ne_nil hkey) (decodeKey_encoded _))
  unfold buildWorkItemDetailPath
  dsimp only
  rw [if_neg hkey]
  cases commentId with
  | none => exact ⟨_, rfl, hbare⟩
  | some comment =>
    dsimp only
    by_cases hpos : 0 < comment.value
    · have hne : comment ≠ noId := by
        rintro rfl
        exact absurd hpos (by decide)
      have hfragment : ∀ c ∈ "comment-".toList ++ numberText comment,
          isFragmentChar c = true := by
        intro c hc
        rcases List.mem_append.mp hc with hmark | hdigit
        · have hall : ("comment-".toList.all isFragmentChar) = true := by decide
          exact List.all_eq_true.mp hall c hmark
        · refine of_ascii (fun d hd => ascii_of_isAlphanum ?_) (by decide : ((List.range 128).all
            fun n => !(Char.ofNat n).isDigit || isFragmentChar (Char.ofNat n)) = true)
            ((numberText_digits (hsmall comment rfl)).2 c hdigit)
          rw [Char.isAlphanum, hd, Bool.or_true]
      have hkept : (some comment).filter (fun comment => decide (comment ≠ noId)) = some comment :=
        Option.filter_some_pos (decide_eq_true hne)
      rw [if_pos hpos, hkept]
      refine ⟨_, rfl, ?_⟩
      have hread := @reads_sitePath p owner "work-items".toList
        [encodeURIComponent (trim itemKey)] [] ("comment-".toList ++ numberText comment)
        (.workItemDetail (trim itemKey) (some comment)) (by decide) hstays hfragment ?_
      · rw [List.append_assoc]
        exact hread
      · rw [viewOf_workItem (encodeURIComponent_ne_nil hkey) (decodeKey_encoded _)]
        have hmark : behindMark '#' ("comment-".toList ++ numberText comment) =
            '#' :: ("comment-".toList ++ numberText comment) := rfl
        rw [hmark, commentOf_written hpos (hsmall comment rfl)]
    · have hzero : comment = noId := by
        refine Whole.ext_value ?_
        have hvalue : noId.value = 0 := rfl
        omega
      rw [if_neg hpos, hzero]
      exact ⟨_, rfl, hbare⟩

/-! ## Lists in the place of a key -/

theorem reads_withoutKey {projectKey tab : List Char} (hkey : trim projectKey = []) :
    Reads p owner (buildProjectDetailPath owner projectKey tab) allProjects := by
  unfold buildProjectDetailPath
  dsimp only
  rw [if_pos hkey]
  exact reads_allProjects owner

theorem reads_libraryWithoutKey {projectKey : List Char} (hkey : trim projectKey = []) :
    Reads p owner (buildProjectResourceLibraryPath owner projectKey) allProjects := by
  unfold buildProjectResourceLibraryPath
  dsimp only
  rw [if_pos hkey]
  exact reads_allProjects owner

theorem reads_analysisWithoutKey {projectKey : List Char} (hkey : trim projectKey = []) :
    Reads p owner (buildProjectPersonalAnalysisPath owner projectKey) allProjects := by
  unfold buildProjectPersonalAnalysisPath
  dsimp only
  rw [if_pos hkey]
  exact reads_allProjects owner

theorem isPlainKey_trim {projectKey : List Char} (hplain : IsPlainKey projectKey) :
    IsPlainKey (trim projectKey) := by
  unfold IsPlainKey
  rwa [trim_trim]

theorem reads_cycleFallback {projectKey : List Char} {cycleId : Option Whole}
    (hplain : IsPlainKey projectKey) :
    (trim projectKey = [] →
      Reads p owner (buildProjectCycleDetailPath owner projectKey cycleId) allProjects) ∧
    (trim projectKey ≠ [] → safeId cycleId = none →
      Reads p owner (buildProjectCycleDetailPath owner projectKey cycleId)
        (.projectDetail (trim projectKey) .cycles)) := by
  unfold buildProjectCycleDetailPath
  dsimp only
  refine ⟨fun hkey => ?_, fun hkey hid => ?_⟩
  · have hnone : trim (trim projectKey) = [] := (trim_trim projectKey).trans hkey
    split
    · exact reads_withoutKey owner hnone
    · rw [if_pos hkey]
      exact reads_withoutKey owner hnone
  · rw [hid]
    have hread := @reads_projectDetail p owner (trim projectKey) "cycles".toList
      (isPlainKey_trim hplain) (by rwa [trim_trim])
    rw [trim_trim] at hread
    exact hread

theorem reads_resourceFallback {projectKey : List Char} {resourceId : Option Whole}
    (hplain : IsPlainKey projectKey) :
    (trim projectKey = [] →
      Reads p owner (buildProjectResourceDetailPath owner projectKey resourceId) allProjects) ∧
    (trim projectKey ≠ [] → safeId resourceId = none →
      Reads p owner (buildProjectResourceDetailPath owner projectKey resourceId)
        (.projectResourceLibrary (trim projectKey))) := by
  unfold buildProjectResourceDetailPath
  dsimp only
  refine ⟨fun hkey => ?_, fun hkey hid => ?_⟩
  · have hnone : trim (trim projectKey) = [] := (trim_trim projectKey).trans hkey
    split
    · exact reads_libraryWithoutKey owner hnone
    · rw [if_pos hkey]
      exact reads_libraryWithoutKey owner hnone
  · rw [hid]
    have hread := @reads_projectResourceLibrary p owner (trim projectKey)
      (isPlainKey_trim hplain) (by rwa [trim_trim])
    rwa [trim_trim] at hread

/-- The list of tasks without filters. -/
theorem default_list (p : Platform) : WorkItemArgs.list p {} = {} := by
  unfold WorkItemArgs.list
  rw [WorkItemArgs.normalizedCycleId, normalizePositiveInt_nil, default_page, default_perPage]
  rfl

theorem reads_itemWithoutKey {itemKey : List Char} {commentId : Option Whole}
    (hkey : trim itemKey = []) :
    ∃ path, buildWorkItemDetailPath p owner itemKey commentId = some path ∧
      Reads p owner path (.workItems .task {}) := by
  unfold buildWorkItemDetailPath
  dsimp only
  rw [if_pos hkey]
  have hread := @reads_workItemList p owner {} .task (by decide) (by decide) default_plain
  rwa [default_list] at hread

end Keys

/-! ## Calls -/

section Calls

variable {p : Platform} {owner : Owner}

/-- What is asked for is what is read. -/
theorem reads_call {call : Call} (hplain : call.IsPlain) :
    ∃ path, call.path p owner = some path ∧ Reads p owner path (call.view p) := by
  cases call with
  | profile => exact ⟨_, rfl, reads_plain (by decide) (fun _ h => nomatch h) rfl⟩
  | timeManagement => exact ⟨_, rfl, reads_plain (by decide) (fun _ h => nomatch h) rfl⟩
  | system => exact ⟨_, rfl, reads_plain (by decide) (fun _ h => nomatch h) rfl⟩
  | systemPermissions q => exact ⟨_, rfl, reads_systemPermissions owner q⟩
  | systemUsers paging => exact ⟨_, rfl, reads_systemUsers owner hplain⟩
  | systemRoles role paging => exact ⟨_, rfl, reads_systemRoles owner role hplain⟩
  | systemStorage paging => exact ⟨_, rfl, reads_systemStorage owner hplain⟩
  | systemOpenApi =>
    exact ⟨_, rfl, @reads_plain p owner "system".toList (names ["openapi"]) _ (by decide)
      (stays_of_names (by decide)) rfl⟩
  | systemApiDocs =>
    exact ⟨_, rfl, @reads_plain p owner "system".toList (names ["api-docs"]) _ (by decide)
      (stays_of_names (by decide)) rfl⟩
  | systemDatabaseStats =>
    exact ⟨_, rfl, @reads_plain p owner "system".toList (names ["database-stats"]) _ (by decide)
      (stays_of_names (by decide)) rfl⟩
  | systemAudit filters paging => exact ⟨_, rfl, reads_systemAudit owner filters hplain⟩
  | systemReleases paging => exact ⟨_, rfl, reads_systemReleases owner hplain⟩
  | search q paging => exact ⟨_, rfl, reads_search owner q hplain⟩
  | messages filter paging => exact ⟨_, rfl, reads_messages owner filter hplain⟩
  | projects status q paging => exact ⟨_, rfl, reads_projects owner status q hplain⟩
  | projectDetail projectKey tab =>
    refine ⟨_, rfl, ?_⟩
    by_cases hkey : trim projectKey = []
    · rw [Call.view, if_pos hkey]
      exact reads_withoutKey owner hkey
    · rw [Call.view, if_neg hkey]
      exact reads_projectDetail owner hplain hkey
  | projectResourceLibrary projectKey =>
    refine ⟨_, rfl, ?_⟩
    by_cases hkey : trim projectKey = []
    · rw [Call.view, if_pos hkey]
      exact reads_libraryWithoutKey owner hkey
    · rw [Call.view, if_neg hkey]
      exact reads_projectResourceLibrary owner hplain hkey
  | projectPersonalAnalysis projectKey =>
    refine ⟨_, rfl, ?_⟩
    by_cases hkey : trim projectKey = []
    · rw [Call.view, if_pos hkey]
      exact reads_analysisWithoutKey owner hkey
    · rw [Call.view, if_neg hkey]
      exact reads_projectPersonalAnalysis owner hplain hkey
  | projectCycleDetail projectKey cycleId =>
    refine ⟨_, rfl, ?_⟩
    by_cases hkey : trim projectKey = []
    · rw [Call.view, if_pos hkey]
      exact (reads_cycleFallback owner hplain).1 hkey
    · rw [Call.view, if_neg hkey]
      cases hid : safeId cycleId with
      | none =>
        rw [if_pos rfl]
        exact (reads_cycleFallback owner hplain).2 hkey hid
      | some number =>
        rw [if_neg (Option.some_ne_none _), Call.named, (safeId_eq_some hid).1]
        exact reads_projectCycleDetail owner hplain hkey ((safeId_eq_some hid).1 ▸ hid)
  | projectResourceDetail projectKey resourceId =>
    refine ⟨_, rfl, ?_⟩
    by_cases hkey : trim projectKey = []
    · rw [Call.view, if_pos hkey]
      exact (reads_resourceFallback owner hplain).1 hkey
    · rw [Call.view, if_neg hkey]
      cases hid : safeId resourceId with
      | none =>
        rw [if_pos rfl]
        exact (reads_resourceFallback owner hplain).2 hkey hid
      | some number =>
        rw [if_neg (Option.some_ne_none _), Call.named, (safeId_eq_some hid).1]
        exact reads_projectResourceDetail owner hplain hkey ((safeId_eq_some hid).1 ▸ hid)
  | workItemList args =>
    obtain ⟨hmeta, hcycle, hpaging⟩ := hplain
    obtain ⟨itemType, htype⟩ := Option.isSome_iff_exists.mp hmeta
    show ∃ path, _ ∧ Reads p owner path
      (.workItems ((routeMetaForItemType args.itemType).getD .task) (args.list p))
    rw [htype]
    exact reads_workItemList owner htype hcycle hpaging
  | workItemDetail itemKey commentId =>
    by_cases hkey : trim itemKey = []
    · rw [Call.view, if_pos hkey]
      exact reads_itemWithoutKey owner hkey
    · rw [Call.view, if_neg hkey]
      exact reads_workItemDetail owner hplain.1 hkey hplain.2

end Calls

/-! ## All paths -/

section Total

variable {p : Platform} {query : Query} {tail : List (List Char)} {hash : List Char}
  {first second : Option (Except UriError View)}

/-- What is found is a route. -/
def Finds (found : Option (Except UriError View)) : Prop :=
  ∀ result ∈ found, ∃ view, result = .ok view

theorem finds_none : Finds none := fun _ h => nomatch h

theorem finds_ok (view : View) : Finds (some (.ok view)) :=
  fun _ h => ⟨view, (Option.some.inj h).symm⟩

theorem finds_or (hfirst : Finds first) (hsecond : Finds second) : Finds (first.or second) := by
  cases first with
  | none => exact hsecond
  | some result => exact hfirst

theorem finds_fixed (table : List (List String × View)) : Finds (fixedView tail table) := by
  intro result hresult
  obtain ⟨view, -, rfl⟩ := Option.map_eq_some_iff.mp hresult
  exact ⟨view, rfl⟩

/-- A key that is text is decoded. -/
theorem finds_key {key : List Char} (h : (decodeURIComponent key).isSome)
    (view : List Char → View) : Finds (some ((decodeKey key).map view)) := by
  obtain ⟨text, htext⟩ := Option.isSome_iff_exists.mp h
  unfold decodeKey
  rw [htext]
  exact finds_ok _

theorem finds_view (h : ∀ key,
    rolePermissionsKey tail = some key ∨ (∃ page, projectMatch tail = some (key, page)) ∨
      workItemKey tail = some key → (decodeURIComponent key).isSome) :
    Finds (viewOf p query tail hash) := by
  have hhome : Finds (homeView tail) := by
    unfold homeView
    split
    · exact finds_ok _
    · exact finds_none
  have hmessages : Finds (messagesView query tail) := by
    unfold messagesView
    split
    · exact finds_ok _
    · exact finds_none
  have hroles : Finds (rolesView query tail) := by
    unfold rolesView
    cases hfound : rolePermissionsKey tail with
    | none => exact finds_none
    | some key => exact finds_key (h key (.inl hfound)) _
  have hproject : Finds (projectView query tail) := by
    unfold projectView
    cases hfound : projectMatch tail with
    | none => exact finds_none
    | some found => exact finds_key (h found.1 (.inr (.inl ⟨found.2, hfound⟩))) _
  have hitem : Finds (workItemView tail hash) := by
    unfold workItemView
    cases hfound : workItemKey tail with
    | none => exact finds_none
    | some key => exact finds_key (h key (.inr (.inr hfound))) _
  exact finds_or hhome (finds_or hmessages (finds_or (finds_fixed _) (finds_or hroles
    (finds_or (finds_fixed _) (finds_or hproject (finds_or (finds_fixed _) hitem))))))

/-- A path whose keys are text is read. -/
theorem parses_of_keysDecode {pathname search : List Char} (h : KeysDecode pathname) :
    ∃ route, parseAppRoute p pathname search hash = .ok route := by
  unfold parseAppRoute
  dsimp only
  cases hroot : behindRoot pathname with
  | none => exact ⟨_, rfl⟩
  | some tail =>
    rw [Option.bind_some]
    cases hfound : viewOf p (searchParams p search) tail hash with
    | none => exact ⟨_, rfl⟩
    | some result =>
      obtain ⟨view, rfl⟩ := finds_view (h tail hroot) result hfound
      exact ⟨_, rfl⟩

end Total

/-- Every builder's path is read as the route that was asked for, and every path whose keys are text
is read as some route. -/
theorem built_paths_are_read (p : Platform) :
    (∀ owner : Owner, ∀ call : Call, call.IsPlain →
      ∃ path, call.path p owner = some path ∧ Reads p owner path (call.view p)) ∧
    ∀ pathname search hash : List Char, KeysDecode pathname →
      ∃ route, parseAppRoute p pathname search hash = .ok route :=
  ⟨fun _ _ => reads_call, fun _ _ _ => parses_of_keysDecode⟩

theorem toUpper_cases (c : Char) : c.toUpper = c ∨ c.toNat < 128 := by
  unfold Char.toUpper
  split
  · next h =>
    refine .inr ?_
    have hz : c.val.toNat ≤ 'z'.val.toNat := UInt32.le_iff_toNat_le.mp h.2
    have hval : 'z'.val.toNat = 122 := rfl
    show c.val.toNat < 128
    omega
  · exact .inl rfl

/-- What holds of the letters of ASCII, and of all that have no other capital letter. -/
theorem of_toUpper {p : Char → Bool} (hself : ∀ c : Char, c.toUpper = c → p c = true)
    (hall : ((List.range 128).all fun n => p (Char.ofNat n)) = true) (c : Char) : p c = true := by
  rcases toUpper_cases c with hsame | hascii
  · exact hself c hsame
  · have hone := List.all_eq_true.mp hall c.toNat (List.mem_range.mpr hascii)
    rwa [Char.ofNat_toNat] at hone

/-- A platform with the capital letters of ASCII. -/
def asciiPlatform : Platform where
  readHost := some
  utf8Decode bytes := ((fromUtf8 bytes).map String.toList).getD []
  utf8Decode_text text := by
    have hbytes : text.flatMap String.utf8EncodeChar = utf8 (String.ofList text) := by
      rw [utf8, String.toList_ofList]
    rw [hbytes, fromUtf8_utf8, Option.map_some, String.toList_ofList]
    rfl
  upper c := [c.toUpper]
  upper_ne_nil c := List.cons_ne_nil _ _
  upper_upper c := by
    have hsame : (c.toUpper.toUpper == c.toUpper) = true :=
      of_toUpper (p := fun c => c.toUpper.toUpper == c.toUpper)
        (fun c h => by rw [h, h, beq_self_eq_true]) (by decide) c
    exact congrArg (fun d => [d]) (beq_iff_eq.mp hsame)
  upper_space c h d hd := by
    have hspace : (isJsSpace c || !isJsSpace c.toUpper) = true :=
      of_toUpper (p := fun c => isJsSpace c || !isJsSpace c.toUpper)
        (fun c h => by rw [h, Bool.or_not_self]) (by decide) c
    rw [h, Bool.false_or, Bool.not_eq_true'] at hspace
    rw [List.mem_singleton.mp hd]
    exact hspace

/-- The path of a page of a project. -/
theorem resource_page_read :
    ∃ path, (Call.projectResourceDetail " YCE / 1".toList
        (some (Whole.ofSafe 9 (by decide)))).path asciiPlatform .web = some path ∧
      Reads asciiPlatform .web path
        (.projectResourceDetail "YCE / 1".toList (Whole.ofSafe 9 (by decide))) :=
  (built_paths_are_read asciiPlatform).1 .web
    (.projectResourceDetail " YCE / 1".toList (some (Whole.ofSafe 9 (by decide))))
    ⟨by decide, by decide⟩

/-- A path is read as one route only. -/
theorem Reads.unique {p : Platform} {owner : Owner} {path : List Char} {view view' : View}
    (h : Reads p owner path view) (h' : Reads p owner path view') : view = view' := by
  obtain ⟨url, hurl, hroute⟩ := h
  obtain ⟨url', hurl', hroute'⟩ := h'
  obtain rfl := Option.some.inj (hurl.symm.trans hurl')
  exact congrArg AppRoute.view (Except.ok.inj (hroute.symm.trans hroute'))

/-- The path of a call is read as the route that the builder is named after. -/
def ReadsNamed (p : Platform) (owner : Owner) (call : Call) : Prop :=
  ∃ path, call.path p owner = some path ∧ Reads p owner path (call.named p)

/-- Without a key there is a list, a dot segment goes to another path, a number with an exponent is
read up to it, an inherited name has no path, and a key that is no text is not read at all. -/
theorem not_all_paths_read :
    ¬ ReadsNamed asciiPlatform .web (.projectDetail [] []) ∧
    ¬ ReadsNamed asciiPlatform .web (.projectDetail ".".toList []) ∧
    ¬ ReadsNamed asciiPlatform .web
      (.systemReleases { page := "1000000000000000000000".toList }) ∧
    ¬ ReadsNamed asciiPlatform .web (.workItemList { itemType := "constructor".toList }) ∧
    parseAppRoute asciiPlatform "/web/projects/%".toList [] [] = .error .malformed := by
  refine ⟨?_, ?_, ?_, ?_, ?_⟩
  · rintro ⟨path, hpath, hread⟩
    obtain rfl := Option.some.inj hpath
    exact absurd (hread.unique (reads_withoutKey .web rfl)) (by decide)
  · rintro ⟨path, hpath, hread⟩
    obtain rfl := Option.some.inj hpath
    have hother : Reads asciiPlatform .web (buildProjectDetailPath .web ".".toList [])
        (.unsupported "/web".toList) :=
      ⟨⟨localBase.origin, [["web".toList, "projects".toList], [[]]].flatten, none, none⟩,
        by decide +kernel, by decide +kernel⟩
    exact absurd (hread.unique hother) (by decide)
  · rintro ⟨path, hpath, hread⟩
    obtain rfl := Option.some.inj hpath
    have hother := @reads_withQuery asciiPlatform .web "system".toList (names ["releases"]) _
      (pagingParams { page := "1000000000000000000000".toList }) (by decide)
      (stays_of_names (by decide)) rfl
    have hsame := hread.unique hother
    injection hsame with hpage hperPage
    exact absurd (congrArg Whole.value hpage) (by decide +kernel)
  · rintro ⟨path, hpath, -⟩
    have hnone : buildWorkItemListPath asciiPlatform .web
        { itemType := "constructor".toList } = none := by decide +kernel
    exact Option.some_ne_none _ (hpath.symm.trans hnone)
  · decide +kernel

end Routes
end Web
end Yuance
