import Mathlib
import Yuance.Lib.Numbers
import Yuance.Lib.UrlTexts

/-!
# Yuance.Web.Routes

The routes of the application: `frontend/packages/app-core/src/routes.js`. A builder writes the path
of a route, and `parseAppRoute` reads a path that the browser has split.

* `Call`: a builder with its arguments, and `Call.view`, the route that it asks for: the list that
  it falls back to where there is no key.
* `parseAppRoute`: the paths in the order in which they are tried.
* `Call.IsPlain`, `KeysDecode`: the calls and the paths that nothing is lost of.
-/

namespace Yuance
namespace Web
namespace Routes

open Lib Lib.Urls

/-! ## Texts and numbers -/

/-- What the platform reads hosts and bytes with, and its capital letters. -/
structure Platform where
  readHost : List Char → Option (List Char)
  utf8Decode : List UInt8 → List Char
  utf8Decode_text : ∀ text : List Char, utf8Decode (text.flatMap String.utf8EncodeChar) = text
  upper : Char → List Char
  upper_ne_nil : ∀ c, upper c ≠ []
  upper_upper : ∀ c, (upper c).flatMap upper = upper c
  upper_space : ∀ c, isJsSpace c = false → ∀ d ∈ upper c, isJsSpace d = false

def Platform.toUpperCase (p : Platform) (text : List Char) : List Char := text.flatMap p.upper

def trim (text : List Char) : List Char := (text.dropWhile isJsSpace).rdropWhile isJsSpace

def DEFAULT_PAGE : Whole := Whole.ofSafe 1 (by decide)

def DEFAULT_PER_PAGE : Whole := Whole.ofSafe 10 (by decide)

/-- The fallback of an id. -/
def noId : Whole := Whole.ofSafe 0 (by decide)

/-- The value as `String(value || '')` writes it. -/
def normalizePositiveInt (value : List Char) (fallback : Whole) : Whole :=
  match parseInt value with
  | none => fallback
  | some parsed => if parsed.value < 1 then fallback else parsed

/-! ## Routes -/

inductive Owner where
  | web
  | app
  deriving DecidableEq

inductive Filter where
  | all
  | unread
  | pending
  | read
  deriving DecidableEq

def Filter.text : Filter → String
  | all => "all"
  | unread => "unread"
  | pending => "pending"
  | read => "read"

/-- No letter outside of ASCII has one of these words' letters as its small letter and nothing
besides. -/
def normalizeFilter (value : List Char) : Filter :=
  let word := (trim value).map asciiLower
  if word = "unread".toList then .unread
  else if word = "pending".toList ∨ word = "pending_discussion".toList then .pending
  else if word = "read".toList then .read
  else .all

inductive Tab where
  | info
  | members
  | cycles
  | time
  deriving DecidableEq

def Tab.text : Tab → String
  | info => "info"
  | members => "members"
  | cycles => "cycles"
  | time => "time"

/-- The tabs that went into `time` included. -/
def normalizeTab (tab : List Char) : Tab :=
  if tab = "members".toList then .members
  else if tab = "cycles".toList then .cycles
  else if tab = "time".toList ∨ tab = "files".toList ∨ tab = "resources".toList then .time
  else .info

inductive WorkItemType where
  | requirement
  | task
  | bug
  deriving DecidableEq

/-- `WORK_ITEM_ROUTE_META`: the id of the route, which is the end of its path. -/
def WorkItemType.id : WorkItemType → String
  | requirement => "requirements"
  | task => "tasks"
  | bug => "bugs"

/-- What an object finds under these names though it has no entry of its own. -/
def inheritedNames : List String :=
  ["constructor", "__defineGetter__", "__defineSetter__", "hasOwnProperty", "__lookupGetter__",
    "__lookupSetter__", "isPrototypeOf", "propertyIsEnumerable", "toString", "valueOf",
    "__proto__", "toLocaleString"]

/-- `none` is an inherited value, which has no path. -/
def routeMetaForItemType (itemType : List Char) : Option WorkItemType :=
  if itemType = "requirement".toList then some .requirement
  else if itemType = "task".toList then some .task
  else if itemType = "bug".toList then some .bug
  else if (inheritedNames.map String.toList).contains itemType then none
  else some .task

/-- The filters of a list of work items, as a route has them. -/
structure WorkItemList where
  q : List Char := []
  status : List Char := []
  priority : List Char := []
  assigneeUsername : List Char := []
  projectKey : List Char := []
  cycleId : Whole := noId
  sort : List Char := []
  page : Whole := DEFAULT_PAGE
  perPage : Whole := DEFAULT_PER_PAGE
  deriving DecidableEq

inductive View where
  | home
  | messages (filter : Filter) (page perPage : Whole)
  | search (q : List Char) (page perPage : Whole)
  | profile
  | systemDashboard
  | systemUsers (page perPage : Whole)
  | systemPermissions (q : List Char)
  | systemRoles (role : List Char) (page perPage : Whole)
  | systemStorage (page perPage : Whole)
  | systemOpenapi
  | systemApiDocs
  | systemDatabaseStats
  | systemAudit (actor action targetType targetId : List Char) (page perPage : Whole)
  | systemReleases (page perPage : Whole)
  | timeManagement
  | projects (status q : List Char) (page perPage : Whole)
  | projectResourceLibrary (projectKey : List Char)
  | projectDetail (projectKey : List Char) (tab : Tab)
  | projectResourceDetail (projectKey : List Char) (resourceId : Whole)
  | projectPersonalAnalysis (projectKey : List Char)
  | projectCycleDetail (projectKey : List Char) (cycleId : Whole)
  | workItems (itemType : WorkItemType) (list : WorkItemList)
  | workItemDetail (itemKey : List Char) (commentId : Option Whole)
  | unsupported (legacyPath : List Char)
  deriving DecidableEq

structure AppRoute where
  owner : Owner
  pathname : List Char
  search : List Char
  view : View
  deriving DecidableEq

/-! ## Paths -/

def Owner.segments : Owner → List (List Char)
  | web => ["web".toList]
  | app => ["web".toList, "app".toList]

def names (texts : List String) : List (List Char) := texts.map String.toList

/-- `/web/…` or `/web/app/…`. -/
def sitePath (owner : Owner) (segments : List (List Char)) : List Char :=
  pathText (owner.segments ++ segments)

abbrev Query := List (List Char × List Char)

/-- The parameters that are set, one after the other and each under a name of its own. -/
def setAll (params : List (String × Option (List Char))) : Query :=
  params.filterMap fun param => param.2.map fun value => (param.1.toList, value)

/-- `query.get(name) || ''`. -/
def queryText (query : Query) (name : String) : List Char :=
  (List.lookup name.toList query).getD []

def withQuery (path : List Char) (params : List (String × Option (List Char))) : List Char :=
  path ++ behindMark '?' (urlencodedSerialize (setAll params))

/-- A text that is set where something is left of it. -/
def textParam (name : String) (value : List Char) : String × Option (List Char) :=
  (name, if trim value = [] then none else some (trim value))

structure Paging where
  page : List Char := "1".toList
  perPage : List Char := "10".toList

def Paging.normalizedPage (paging : Paging) : Whole :=
  normalizePositiveInt paging.page DEFAULT_PAGE

def Paging.normalizedPerPage (paging : Paging) : Whole :=
  normalizePositiveInt paging.perPage DEFAULT_PER_PAGE

def pageParam (page : Whole) : String × Option (List Char) :=
  ("page", if DEFAULT_PAGE.value < page.value then some (numberText page) else none)

def perPageParam (perPage : Whole) : String × Option (List Char) :=
  ("per_page", if perPage ≠ DEFAULT_PER_PAGE then some (numberText perPage) else none)

def pagingParams (paging : Paging) : List (String × Option (List Char)) :=
  [pageParam paging.normalizedPage, perPageParam paging.normalizedPerPage]

/-! ## The builders -/

def buildProfilePath (owner : Owner) : List Char := sitePath owner (names ["me"])

def buildSystemPath (owner : Owner) : List Char := sitePath owner (names ["system"])

def buildTimeManagementPath (owner : Owner) : List Char :=
  sitePath owner (names ["time-management"])

def buildSystemPermissionsPath (owner : Owner) (q : List Char) : List Char :=
  withQuery (sitePath owner (names ["system", "permissions"])) [textParam "q" q]

def buildSystemUsersPath (owner : Owner) (paging : Paging) : List Char :=
  withQuery (sitePath owner (names ["system", "users"])) (pagingParams paging)

def buildSystemRolesPath (owner : Owner) (role : List Char) (paging : Paging) : List Char :=
  withQuery (sitePath owner (names ["system", "roles"]))
    (textParam "role" role :: pagingParams paging)

def buildSystemStoragePath (owner : Owner) (paging : Paging) : List Char :=
  withQuery (sitePath owner (names ["system", "storage"])) (pagingParams paging)

def buildSystemOpenApiPath (owner : Owner) : List Char :=
  sitePath owner (names ["system", "openapi"])

def buildSystemApiDocsPath (owner : Owner) : List Char :=
  sitePath owner (names ["system", "api-docs"])

def buildSystemDatabaseStatsPath (owner : Owner) : List Char :=
  sitePath owner (names ["system", "database-stats"])

structure AuditFilters where
  actor : List Char := []
  action : List Char := []
  targetType : List Char := []
  targetId : List Char := []

def buildSystemAuditPath (owner : Owner) (filters : AuditFilters) (paging : Paging) : List Char :=
  withQuery (sitePath owner (names ["system", "audit"]))
    ([textParam "actor" filters.actor, textParam "action" filters.action,
      textParam "target_type" filters.targetType, textParam "target_id" filters.targetId] ++
      pagingParams paging)

def buildSystemReleasesPath (owner : Owner) (paging : Paging) : List Char :=
  withQuery (sitePath owner (names ["system", "releases"])) (pagingParams paging)

def buildSearchPath (owner : Owner) (q : List Char) (paging : Paging) : List Char :=
  withQuery (sitePath owner (names ["search"])) (textParam "q" q :: pagingParams paging)

def buildMessagesPath (owner : Owner) (filter : List Char) (paging : Paging) : List Char :=
  let normalizedFilter := normalizeFilter filter
  withQuery (sitePath owner (names ["messages"]))
    (("filter", if normalizedFilter ≠ .all then some normalizedFilter.text.toList else none) ::
      pagingParams paging)

/-- The status that is asked for: `all` asks for none. -/
def statusFilter (status : List Char) : List Char :=
  if trim status = "all".toList then [] else trim status

def buildProjectsPath (owner : Owner) (status q : List Char) (paging : Paging) : List Char :=
  withQuery (sitePath owner (names ["projects"]))
    (("status", if statusFilter status = [] then none else some (statusFilter status)) ::
      textParam "q" q :: pagingParams paging)

def buildProjectDetailPath (owner : Owner) (projectKey tab : List Char) : List Char :=
  let normalizedKey := trim projectKey
  if normalizedKey = [] then buildProjectsPath owner [] [] {}
  else
    let basePath := sitePath owner (names ["projects"] ++ [encodeURIComponent normalizedKey])
    if normalizeTab tab = .info then basePath
    else basePath ++ "?tab=".toList ++ (normalizeTab tab).text.toList

def buildProjectResourceLibraryPath (owner : Owner) (projectKey : List Char) : List Char :=
  let normalizedKey := trim projectKey
  if normalizedKey = [] then buildProjectsPath owner [] [] {}
  else
    let basePath := sitePath owner (names ["projects"] ++ [encodeURIComponent normalizedKey])
    basePath ++ "/resources".toList

/-- An id is what `Number` makes of it, where that is a whole number that is not negative. Here it
has to be safe, and at least one. -/
def safeId (id : Option Whole) : Option Whole :=
  id.filter fun normalizedId => normalizedId.value ≤ maxSafeInteger ∧ 1 ≤ normalizedId.value

def buildProjectCycleDetailPath (owner : Owner) (projectKey : List Char)
    (cycleId : Option Whole) : List Char :=
  let normalizedKey := trim projectKey
  match safeId cycleId with
  | none => buildProjectDetailPath owner normalizedKey "cycles".toList
  | some normalizedId =>
    if normalizedKey = [] then buildProjectDetailPath owner normalizedKey "cycles".toList
    else buildProjectDetailPath owner normalizedKey "info".toList ++ "/cycles/".toList ++
      numberText normalizedId

def buildProjectResourceDetailPath (owner : Owner) (projectKey : List Char)
    (resourceId : Option Whole) : List Char :=
  let normalizedKey := trim projectKey
  match safeId resourceId with
  | none => buildProjectResourceLibraryPath owner normalizedKey
  | some normalizedId =>
    if normalizedKey = [] then buildProjectResourceLibraryPath owner normalizedKey
    else buildProjectDetailPath owner normalizedKey "info".toList ++ "/resources/".toList ++
      numberText normalizedId

def buildProjectPersonalAnalysisPath (owner : Owner) (projectKey : List Char) : List Char :=
  let normalizedKey := trim projectKey
  if normalizedKey = [] then buildProjectsPath owner [] [] {}
  else buildProjectDetailPath owner normalizedKey "info".toList ++ "/my-analysis".toList

structure WorkItemArgs extends Paging where
  itemType : List Char := "task".toList
  q : List Char := []
  status : List Char := []
  priority : List Char := []
  assigneeUsername : List Char := []
  projectKey : List Char := []
  cycleId : List Char := []
  sort : List Char := []

def WorkItemArgs.normalizedCycleId (args : WorkItemArgs) : Whole :=
  normalizePositiveInt args.cycleId noId

def buildWorkItemQuery (p : Platform) (args : WorkItemArgs) :
    List (String × Option (List Char)) :=
  [textParam "q" args.q,
    textParam "status" args.status,
    ("priority", if trim args.priority = [] then none
      else some (p.toUpperCase (trim args.priority))),
    textParam "assignee_username" args.assigneeUsername,
    textParam "project_key" args.projectKey,
    ("cycle_id", if 0 < args.normalizedCycleId.value then some (numberText args.normalizedCycleId)
      else none),
    textParam "sort" args.sort] ++
    pagingParams args.toPaging

/-- Without a path of its own the query stands behind the text `undefined`, and alone there is no
path at all. -/
def buildWorkItemListPath (p : Platform) (owner : Owner) (args : WorkItemArgs) :
    Option (List Char) :=
  let query := buildWorkItemQuery p args
  match routeMetaForItemType args.itemType with
  | some itemType => some (withQuery (sitePath owner (names [itemType.id])) query)
  | none => if setAll query = [] then none else some (withQuery "undefined".toList query)

/-- The comment is a number of its own type, and no text. -/
def buildWorkItemDetailPath (p : Platform) (owner : Owner) (itemKey : List Char)
    (commentId : Option Whole) : Option (List Char) :=
  let normalizedKey := trim itemKey
  if normalizedKey = [] then buildWorkItemListPath p owner {}
  else
    let basePath := sitePath owner (names ["work-items"] ++ [encodeURIComponent normalizedKey])
    match commentId with
    | none => some basePath
    | some comment =>
      if 0 < comment.value then some (basePath ++ "#comment-".toList ++ numberText comment)
      else some basePath

/-! ## The parser -/

inductive UriError where
  | malformed
  deriving DecidableEq

/-- `decodeURIComponent` of a segment. -/
def decodeKey (key : List Char) : Except UriError (List Char) :=
  match decodeURIComponent key with
  | some text => .ok text
  | none => .error .malformed

def normalizeOwner (pathname : List Char) : Owner :=
  if "/web/app".toList.isPrefixOf pathname then .app else .web

/-- `new URLSearchParams(search)`. -/
def searchParams (p : Platform) (search : List Char) : Query :=
  match search with
  | '?' :: query => urlencodedParse p.utf8Decode query
  | query => urlencodedParse p.utf8Decode query

/-- The segments behind `/web` or `/web/app`. -/
def behindRoot (pathname : List Char) : Option (List (List Char)) :=
  match pathname.splitOnP (· == '/') with
  | [] :: web :: rest =>
    if web = "web".toList then
      if rest.head? = some "app".toList then some rest.tail else some rest
    else none
  | _ => none

section Views

variable (p : Platform) (query : Query) (tail : List (List Char))

def filterOf : Filter := normalizeFilter (queryText query "filter")

def pageOf : Whole := normalizePositiveInt (queryText query "page") DEFAULT_PAGE

def perPageOf : Whole := normalizePositiveInt (queryText query "per_page") DEFAULT_PER_PAGE

def textOf (name : String) : List Char := trim (queryText query name)

/-- `/web` and `/web/`. -/
def homeView : Option (Except UriError View) :=
  if tail = [] ∨ tail = [[]] then some (.ok .home) else none

/-- `/messages` and all that is below it. -/
def messagesView : Option (Except UriError View) :=
  if tail.head? = some "messages".toList then
    some (.ok (.messages (filterOf query) (pageOf query) (perPageOf query)))
  else none

/-- A path that is one of a table. -/
def fixedView (table : List (List String × View)) : Option (Except UriError View) :=
  ((table.map fun entry => (names entry.1, entry.2)).lookup tail).map .ok

/-- The paths that are tried before the permissions of a role. -/
def earlyViews : List (List String × View) :=
  [(["search"], .search (textOf query "q") (pageOf query) (perPageOf query)),
    (["me"], .profile),
    (["system"], .systemDashboard),
    (["system", "users"], .systemUsers (pageOf query) (perPageOf query)),
    (["system", "permissions"], .systemPermissions (textOf query "q")),
    (["system", "roles"], .systemRoles (textOf query "role") (pageOf query) (perPageOf query))]

/-- The paths that are tried behind it. -/
def lateViews : List (List String × View) :=
  [(["system", "storage"], .systemStorage (pageOf query) (perPageOf query)),
    (["system", "openapi"], .systemOpenapi),
    (["system", "api-docs"], .systemApiDocs),
    (["system", "database-stats"], .systemDatabaseStats),
    (["system", "audit"], .systemAudit (textOf query "actor") (textOf query "action")
      (textOf query "target_type") (textOf query "target_id") (pageOf query) (perPageOf query)),
    (["system", "releases"], .systemReleases (pageOf query) (perPageOf query)),
    (["time-management"], .timeManagement),
    (["projects"], .projects (textOf query "status") (textOf query "q") (pageOf query)
      (perPageOf query))]

/-- `/system/roles/([^/]+)/permissions`. -/
def rolePermissionsKey : Option (List Char) :=
  match tail with
  | [system, roles, key, permissions] =>
    if system = "system".toList ∧ roles = "roles".toList ∧ key ≠ [] ∧
        permissions = "permissions".toList then some key
    else none
  | _ => none

def rolesView : Option (Except UriError View) :=
  (rolePermissionsKey tail).map fun key =>
    (decodeKey key).map fun role => .systemRoles role (pageOf query) (perPageOf query)

inductive ProjectPage where
  | resources
  | detail
  | resource (digits : List Char)
  | myAnalysis
  | cycle (digits : List Char)
  deriving DecidableEq

/-- `\d+`. -/
def isDigits (text : List Char) : Bool := !text.isEmpty && text.all Char.isDigit

/-- What stands behind `/projects/([^/]+)`. -/
def projectPage (rest : List (List Char)) : Option ProjectPage :=
  match rest with
  | [] => some .detail
  | [page] =>
    if page = "resources".toList then some .resources
    else if page = "my-analysis".toList then some .myAnalysis
    else none
  | [kind, digits] =>
    if kind = "resources".toList ∧ isDigits digits then some (.resource digits)
    else if kind = "cycles".toList ∧ isDigits digits then some (.cycle digits)
    else none
  | _ => none

/-- The key of a project and the page of it. -/
def projectMatch : Option (List Char × ProjectPage) :=
  match tail with
  | projects :: key :: rest =>
    if projects = "projects".toList ∧ key ≠ [] then (projectPage rest).map fun page => (key, page)
    else none
  | _ => none

def projectPageView (projectKey : List Char) : ProjectPage → View
  | .resources => .projectResourceLibrary projectKey
  | .detail => .projectDetail projectKey (normalizeTab (queryText query "tab"))
  | .resource digits => .projectResourceDetail projectKey (normalizePositiveInt digits noId)
  | .myAnalysis => .projectPersonalAnalysis projectKey
  | .cycle digits => .projectCycleDetail projectKey (normalizePositiveInt digits noId)

def projectView : Option (Except UriError View) :=
  (projectMatch tail).map fun found =>
    (decodeKey found.1).map fun projectKey => projectPageView query projectKey found.2

def workItemListOf : WorkItemList where
  q := textOf query "q"
  status := textOf query "status"
  priority := p.toUpperCase (textOf query "priority")
  assigneeUsername := textOf query "assignee_username"
  projectKey := textOf query "project_key"
  cycleId := normalizePositiveInt (queryText query "cycle_id") noId
  sort := textOf query "sort"
  page := pageOf query
  perPage := perPageOf query

def workItemViews : List (List String × View) :=
  [WorkItemType.requirement, .task, .bug].map fun itemType =>
    ([itemType.id], .workItems itemType (workItemListOf p query))

/-- `/work-items/([^/]+)`. -/
def workItemKey : Option (List Char) :=
  match tail with
  | [workItems, key] => if workItems = "work-items".toList ∧ key ≠ [] then some key else none
  | _ => none

/-- `#comment-(\d+)`. -/
def commentOf (hash : List Char) : Option Whole :=
  match "#comment-".toList.isPrefixOf? hash with
  | some digits =>
    if isDigits digits then
      (some (normalizePositiveInt digits noId)).filter fun commentId => commentId ≠ noId
    else none
  | none => none

def workItemView (hash : List Char) : Option (Except UriError View) :=
  (workItemKey tail).map fun key =>
    (decodeKey key).map fun itemKey => .workItemDetail itemKey (commentOf hash)

/-- The paths in the order in which they are tried. -/
def viewOf (hash : List Char) : Option (Except UriError View) :=
  (homeView tail).or <| (messagesView query tail).or <| (fixedView tail (earlyViews query)).or <|
    (rolesView query tail).or <| (fixedView tail (lateViews query)).or <|
      (projectView query tail).or <| (fixedView tail (workItemViews p query)).or <|
        workItemView tail hash

end Views

def legacyPath (owner : Owner) (pathname : List Char) : List Char :=
  match "/web/app/".toList.isPrefixOf? pathname with
  | some rest => if owner = .app then "/web/".toList ++ rest else "/web".toList
  | none => "/web".toList

def parseAppRoute (p : Platform) (pathname search hash : List Char) : Except UriError AppRoute :=
  let owner := normalizeOwner pathname
  let query := searchParams p search
  let view := ((behindRoot pathname).bind fun tail => viewOf p query tail hash).getD
    (.ok (.unsupported (legacyPath owner pathname)))
  view.map fun view => { owner := owner, pathname := pathname, search := search, view := view }

/-! ## Calls -/

/-- A builder with its arguments. -/
inductive Call where
  | profile
  | timeManagement
  | system
  | systemPermissions (q : List Char)
  | systemUsers (paging : Paging)
  | systemRoles (role : List Char) (paging : Paging)
  | systemStorage (paging : Paging)
  | systemOpenApi
  | systemApiDocs
  | systemDatabaseStats
  | systemAudit (filters : AuditFilters) (paging : Paging)
  | systemReleases (paging : Paging)
  | search (q : List Char) (paging : Paging)
  | messages (filter : List Char) (paging : Paging)
  | projects (status q : List Char) (paging : Paging)
  | projectDetail (projectKey tab : List Char)
  | projectResourceLibrary (projectKey : List Char)
  | projectCycleDetail (projectKey : List Char) (cycleId : Option Whole)
  | projectResourceDetail (projectKey : List Char) (resourceId : Option Whole)
  | projectPersonalAnalysis (projectKey : List Char)
  | workItemList (args : WorkItemArgs)
  | workItemDetail (itemKey : List Char) (commentId : Option Whole)

def Call.path (p : Platform) (owner : Owner) : Call → Option (List Char)
  | profile => some (buildProfilePath owner)
  | timeManagement => some (buildTimeManagementPath owner)
  | system => some (buildSystemPath owner)
  | systemPermissions q => some (buildSystemPermissionsPath owner q)
  | systemUsers paging => some (buildSystemUsersPath owner paging)
  | systemRoles role paging => some (buildSystemRolesPath owner role paging)
  | systemStorage paging => some (buildSystemStoragePath owner paging)
  | systemOpenApi => some (buildSystemOpenApiPath owner)
  | systemApiDocs => some (buildSystemApiDocsPath owner)
  | systemDatabaseStats => some (buildSystemDatabaseStatsPath owner)
  | systemAudit filters paging => some (buildSystemAuditPath owner filters paging)
  | systemReleases paging => some (buildSystemReleasesPath owner paging)
  | search q paging => some (buildSearchPath owner q paging)
  | messages filter paging => some (buildMessagesPath owner filter paging)
  | projects status q paging => some (buildProjectsPath owner status q paging)
  | projectDetail projectKey tab => some (buildProjectDetailPath owner projectKey tab)
  | projectResourceLibrary projectKey => some (buildProjectResourceLibraryPath owner projectKey)
  | projectCycleDetail projectKey cycleId =>
    some (buildProjectCycleDetailPath owner projectKey cycleId)
  | projectResourceDetail projectKey resourceId =>
    some (buildProjectResourceDetailPath owner projectKey resourceId)
  | projectPersonalAnalysis projectKey =>
    some (buildProjectPersonalAnalysisPath owner projectKey)
  | workItemList args => buildWorkItemListPath p owner args
  | workItemDetail itemKey commentId => buildWorkItemDetailPath p owner itemKey commentId

/-- The filters as they are normalised. -/
def WorkItemArgs.list (p : Platform) (args : WorkItemArgs) : WorkItemList where
  q := trim args.q
  status := trim args.status
  priority := p.toUpperCase (trim args.priority)
  assigneeUsername := trim args.assigneeUsername
  projectKey := trim args.projectKey
  cycleId := args.normalizedCycleId
  sort := trim args.sort
  page := args.normalizedPage
  perPage := args.normalizedPerPage

/-- The route that a builder is named after, with the arguments normalised. The type of a list of
work items is that of its meta. -/
def Call.named (p : Platform) : Call → View
  | profile => .profile
  | timeManagement => .timeManagement
  | system => .systemDashboard
  | systemPermissions q => .systemPermissions (trim q)
  | systemUsers paging => .systemUsers paging.normalizedPage paging.normalizedPerPage
  | systemRoles role paging =>
    .systemRoles (trim role) paging.normalizedPage paging.normalizedPerPage
  | systemStorage paging => .systemStorage paging.normalizedPage paging.normalizedPerPage
  | systemOpenApi => .systemOpenapi
  | systemApiDocs => .systemApiDocs
  | systemDatabaseStats => .systemDatabaseStats
  | systemAudit filters paging =>
    .systemAudit (trim filters.actor) (trim filters.action) (trim filters.targetType)
      (trim filters.targetId) paging.normalizedPage paging.normalizedPerPage
  | systemReleases paging => .systemReleases paging.normalizedPage paging.normalizedPerPage
  | search q paging => .search (trim q) paging.normalizedPage paging.normalizedPerPage
  | messages filter paging =>
    .messages (normalizeFilter filter) paging.normalizedPage paging.normalizedPerPage
  | projects status q paging =>
    .projects (statusFilter status) (trim q) paging.normalizedPage paging.normalizedPerPage
  | projectDetail projectKey tab => .projectDetail (trim projectKey) (normalizeTab tab)
  | projectResourceLibrary projectKey => .projectResourceLibrary (trim projectKey)
  | projectCycleDetail projectKey cycleId =>
    .projectCycleDetail (trim projectKey) (cycleId.getD noId)
  | projectResourceDetail projectKey resourceId =>
    .projectResourceDetail (trim projectKey) (resourceId.getD noId)
  | projectPersonalAnalysis projectKey => .projectPersonalAnalysis (trim projectKey)
  | workItemList args => .workItems ((routeMetaForItemType args.itemType).getD .task) (args.list p)
  | workItemDetail itemKey commentId =>
    .workItemDetail (trim itemKey) (commentId.filter fun comment => comment ≠ noId)

/-- The list of all projects. -/
def allProjects : View := .projects [] [] DEFAULT_PAGE DEFAULT_PER_PAGE

/-- The route that a call asks for. A builder without a key asks for a list instead, and one without
an id for the page that has the ids. -/
def Call.view (p : Platform) (call : Call) : View :=
  match call with
  | projectDetail projectKey _ => if trim projectKey = [] then allProjects else call.named p
  | projectResourceLibrary projectKey => if trim projectKey = [] then allProjects else call.named p
  | projectPersonalAnalysis projectKey =>
    if trim projectKey = [] then allProjects else call.named p
  | projectCycleDetail projectKey cycleId =>
    if trim projectKey = [] then allProjects
    else if safeId cycleId = none then .projectDetail (trim projectKey) .cycles
    else call.named p
  | projectResourceDetail projectKey resourceId =>
    if trim projectKey = [] then allProjects
    else if safeId resourceId = none then .projectResourceLibrary (trim projectKey)
    else call.named p
  | workItemDetail itemKey _ => if trim itemKey = [] then .workItems .task {} else call.named p
  | _ => call.named p

/-- A key that the browser leaves where it stands. -/
def IsPlainKey (key : List Char) : Prop := trim key ≠ ".".toList ∧ trim key ≠ "..".toList

/-- Numbers that are written without an exponent. -/
def Paging.IsPlain (paging : Paging) : Prop :=
  paging.normalizedPage.value < 10 ^ 21 ∧ paging.normalizedPerPage.value < 10 ^ 21

/-- A call without a key that is a dot segment, without a number that is written with an exponent,
and without a type that every object has an entry for. -/
def Call.IsPlain : Call → Prop
  | systemUsers paging => paging.IsPlain
  | systemRoles _ paging => paging.IsPlain
  | systemStorage paging => paging.IsPlain
  | systemAudit _ paging => paging.IsPlain
  | systemReleases paging => paging.IsPlain
  | search _ paging => paging.IsPlain
  | messages _ paging => paging.IsPlain
  | projects _ _ paging => paging.IsPlain
  | projectDetail projectKey _ => IsPlainKey projectKey
  | projectResourceLibrary projectKey => IsPlainKey projectKey
  | projectCycleDetail projectKey _ => IsPlainKey projectKey
  | projectResourceDetail projectKey _ => IsPlainKey projectKey
  | projectPersonalAnalysis projectKey => IsPlainKey projectKey
  | workItemList args => (routeMetaForItemType args.itemType).isSome ∧
      args.normalizedCycleId.value < 10 ^ 21 ∧ args.toPaging.IsPlain
  | workItemDetail itemKey commentId =>
    IsPlainKey itemKey ∧ ∀ comment ∈ commentId, comment.value < 10 ^ 21
  | _ => True

/-- What the path is read against when the application goes to it. -/
def localBase : Url := ⟨⟨"http".toList, "yuance.local".toList, none⟩, [[]], none, none⟩

/-- The path is split by the browser, and read as a route of the owner. -/
def Reads (p : Platform) (owner : Owner) (path : List Char) (view : View) : Prop :=
  ∃ url, parseUrl p.readHost (some localBase) path = some url ∧
    parseAppRoute p url.pathname url.search url.hash =
      .ok { owner := owner, pathname := url.pathname, search := url.search, view := view }

/-- The keys in a path are text. -/
def KeysDecode (pathname : List Char) : Prop :=
  ∀ tail ∈ behindRoot pathname, ∀ key,
    rolePermissionsKey tail = some key ∨ (∃ page, projectMatch tail = some (key, page)) ∨
      workItemKey tail = some key →
    (decodeURIComponent key).isSome

end Routes
end Web
end Yuance
