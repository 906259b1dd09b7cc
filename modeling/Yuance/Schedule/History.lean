import Yuance.Lib.Runs
import Yuance.Lib.Table
import Yuance.Schedule.Drag

/-!
# Yuance.Schedule.History

The editable schedule of `time-allocation-gantt.jsx`: its items, the lists behind undo and redo, and
what saving sends. An event carries what the page shows and what the clock reads when it happens.

* `timeAllocationHistoryReducer`, `step`: the reducer, and the handlers that dispatch to it.
* `buildSaveOperations`, `applyOperations`: what is sent, and what the server makes of it.
* `Kept`: the items are the originals, edited, and items of their own ids.
* `saved_exactly`: in a run whose new items take fresh clock readings, saving sends the difference.
-/

namespace Yuance
namespace Schedule

open Lib

/-! ## The page -/

structure Project where
  key : String
  name : String
  deriving DecidableEq, Repr

structure Member where
  username : String
  displayName : String
  deriving DecidableEq, Repr

/-- What the handlers read of the page. -/
structure Page where
  view : View
  projects : List Project
  members : List Member
  /-- `viewScope === 'all'`. -/
  viewScopeAll : Bool
  currentUsername : String
  selectedProjectKey : String
  selectedMemberUsername : String
  manualStart : String
  manualEnd : String
  manualTaskName : String
  deriving DecidableEq, Repr

def projectName (page : Page) (projectKey : String) : String :=
  textOr ((page.projects.find? fun project => project.key = projectKey).map Project.name) projectKey

/-- One member for each username among the items. -/
def seenMembers (members : List Member) (items : List TimeAllocation) : List Member :=
  items.foldl (fun seen allocation =>
    if seen.any fun member => member.username = allocation.username then seen
    else seen ++ [{
      username := allocation.username
      displayName := textOr ((members.find? fun candidate =>
        candidate.username = allocation.username).map Member.displayName)
          (textOr (some allocation.displayName) allocation.username) }]) []

def visibleMembers (page : Page) (items : List TimeAllocation) : List Member :=
  let allMembers := seenMembers page.members items
  if page.viewScopeAll ∨ page.currentUsername = "" then allMembers
  else allMembers.filter fun member => member.username = page.currentUsername

def memberName (page : Page) (items : List TimeAllocation) (username : String) : String :=
  textOr (((visibleMembers page items).find? fun member => member.username = username).map
    Member.displayName) username

/-- The white space that `trim` removes. -/
def isWhiteSpace (c : Char) : Bool :=
  [0x9, 0xa, 0xb, 0xc, 0xd, 0x20, 0xa0, 0x1680, 0x2028, 0x2029, 0x202f, 0x205f, 0x3000,
    0xfeff].contains c.toNat || (0x2000 ≤ c.toNat && c.toNat ≤ 0x200a)

def trimmed (text : String) : String :=
  String.ofList ((text.toList.dropWhile isWhiteSpace).rdropWhile isWhiteSpace)

/-! ## The reducer -/

structure Timeline where
  items : List TimeAllocation
  undoStack : List (List TimeAllocation)
  redoStack : List (List TimeAllocation)
  deriving DecidableEq

inductive TimelineAction where
  | replace (items : List TimeAllocation)
  | change (items : List TimeAllocation)
  | undo
  | redo
  | clearHistory

def timeAllocationHistoryReducer (state : Timeline) : TimelineAction → Timeline
  | .replace items => { items := items, undoStack := [], redoStack := [] }
  | .change items =>
    { items := items
      undoStack := state.undoStack ++ [state.items]
      redoStack := [] }
  | .undo =>
    match state.undoStack.getLast? with
    | none => state
    | some previous =>
      { items := previous
        undoStack := state.undoStack.dropLast
        redoStack := state.redoStack ++ [state.items] }
  | .redo =>
    match state.redoStack.getLast? with
    | none => state
    | some next =>
      { items := next
        undoStack := state.undoStack ++ [state.items]
        redoStack := state.redoStack.dropLast }
  | .clearHistory => { state with undoStack := [], redoStack := [] }

/-! ## The handlers -/

/-- A new item, named by the clock. -/
def newItem (page : Page) (items : List TimeAllocation) (now : Int)
    (username startDate endDate : String) : TimeAllocation where
  id := -now
  projectKey := page.selectedProjectKey
  projectName := projectName page page.selectedProjectKey
  username := username
  displayName := memberName page items username
  startDate := startDate
  endDate := endDate
  dailyHours := defaultDailyHours
  phaseTaskName := trimmed page.manualTaskName
  note := ""

/-- `commitSelection`, of a selection from one day of the track to another. -/
def commitSelection (page : Page) (items : List TimeAllocation) (username : String)
    (startDay currentDay now : Int) : Option TimeAllocation :=
  let first := min startDay currentDay
  let last := max startDay currentDay
  if first < 0 ∨ last ≥ page.view.totalDays ∨ last < first ∨ page.selectedProjectKey = ""
      ∨ username = "" then none
  else
    some (newItem page items now username (dateFromDay first page.view.computedViewStart)
      (dateFromDay last page.view.computedViewStart))

def missingFields : String := "请选择项目和成员，并填写开始/结束日期。"

def endBeforeStart : String := "结束日期不能早于开始日期。"

def handleManualAdd (page : Page) (items : List TimeAllocation) (now : Int) :
    Except String TimeAllocation :=
  if page.selectedProjectKey = "" ∨ page.selectedMemberUsername = "" ∨ page.manualStart = ""
      ∨ page.manualEnd = "" then
    .error missingFields
  else if page.manualStart > page.manualEnd then .error endBeforeStart
  else
    .ok (newItem page items now page.selectedMemberUsername page.manualStart page.manualEnd)

/-- `items.map`, with `next` in the place of what has its id. -/
def replaceItem (items : List TimeAllocation) (next : TimeAllocation) : List TimeAllocation :=
  items.map fun item => if item.id = next.id then next else item

/-- `items.filter`, without what has the id. -/
def removeItem (items : List TimeAllocation) (id : Int) : List TimeAllocation :=
  items.filter fun item => item.id ≠ id

/-- The change that `submitEditPopover` dispatches, if the item is still there. -/
def submitEditPopover (items : List TimeAllocation) (editDraft : TimeAllocation) :
    Except String (Option (List TimeAllocation)) :=
  if editDraft.startDate > editDraft.endDate then .error endBeforeStart
  else
    match items.find? fun item => item.id = editDraft.id with
    | none => .ok none
    | some current =>
      .ok (some (replaceItem items { current with
        startDate := editDraft.startDate
        endDate := editDraft.endDate
        phaseTaskName := trimmed editDraft.phaseTaskName
        note := trimmed editDraft.note }))

/-! ## Runs -/

structure Chart where
  timeline : Timeline
  error : String
  deriving DecidableEq

def Chart.dispatch (chart : Chart) (action : TimelineAction) : Chart :=
  { chart with timeline := timeAllocationHistoryReducer chart.timeline action }

inductive Event where
  | commitSelection (page : Page) (username : String) (startDay currentDay now : Int)
  | handleManualAdd (page : Page) (now : Int)
  | commitBlockDrag (page : Page) (drag : BlockDrag)
  | submitEditPopover (editDraft : TimeAllocation)
  | handleGanttDoubleClick (id : Int)
  | undo
  | redo

/-- The button of `undo` or `redo` is disabled where its stack is empty. -/
def step (chart : Chart) : Event → Option (Chart × Unit)
  | .commitSelection page username startDay currentDay now =>
    match commitSelection page chart.timeline.items username startDay currentDay now with
    | none => some (chart, ())
    | some item => some (chart.dispatch (.change (chart.timeline.items ++ [item])), ())
  | .handleManualAdd page now =>
    match handleManualAdd page chart.timeline.items now with
    | .error message => some ({ chart with error := message }, ())
    | .ok item => some (chart.dispatch (.change (chart.timeline.items ++ [item])), ())
  | .commitBlockDrag page drag =>
    match commitBlockDrag page.view chart.timeline.items drag with
    | none => some (chart, ())
    | some items => some (chart.dispatch (.change items), ())
  | .submitEditPopover editDraft =>
    match submitEditPopover chart.timeline.items editDraft with
    | .error message => some ({ chart with error := message }, ())
    | .ok none => some (chart, ())
    | .ok (some items) => some (chart.dispatch (.change items), ())
  | .handleGanttDoubleClick id =>
    some (chart.dispatch (.change (removeItem chart.timeline.items id)), ())
  | .undo => if chart.timeline.undoStack = [] then none else some (chart.dispatch .undo, ())
  | .redo => if chart.timeline.redoStack = [] then none else some (chart.dispatch .redo, ())

/-- The chart when the page has received `allocations`. -/
def Chart.initial (allocations : List ReceivedAllocation) : Chart where
  timeline :=
    { items := allocations.map normalizeAllocation
      undoStack := []
      redoStack := [] }
  error := ""

/-! ## Saving -/

structure Operations where
  created : List TimeAllocation
  updated : List TimeAllocation
  deleted : List TimeAllocation
  deriving DecidableEq, Repr

/-- `byId.get`: the last item of the id. -/
def byId (items : List TimeAllocation) (id : Int) : Option TimeAllocation :=
  items.reverse.find? fun item => item.id = id

/-- What makes an item one that is sent as updated. -/
def isUpdate (source next : TimeAllocation) : Bool :=
  next.projectKey ≠ source.projectKey || next.username ≠ source.username ||
    next.startDate ≠ source.startDate || next.endDate ≠ source.endDate ||
    next.dailyHours ≠ source.dailyHours || next.phaseTaskName ≠ source.phaseTaskName ||
    next.note ≠ source.note

def buildSaveOperations (allocations : List ReceivedAllocation) (items : List TimeAllocation) :
    Operations :=
  let original := allocations.map normalizeAllocation
  { created := items.filter fun item => item.id < 0
    updated := original.filterMap fun source =>
      match byId items source.id with
      | none => none
      | some next => if isUpdate source next then some next else none
    deleted := original.filter fun source => (byId items source.id).isNone }

/-- The operations done one kind after the other: delete, replace, add. -/
def applyOperations (operations : Operations) (stored : List TimeAllocation) :
    List TimeAllocation :=
  ((stored.filter fun item => !operations.deleted.any fun deleted => deleted.id = item.id).map
    fun item => (operations.updated.find? fun updated => updated.id = item.id).getD item)
      ++ operations.created

/-! ## What the items keep -/

/-- An original with other dates and texts. -/
def Edited (source item : TimeAllocation) : Prop :=
  item = { source with
    startDate := item.startDate
    endDate := item.endDate
    phaseTaskName := item.phaseTaskName
    note := item.note }

/-- Every item has its own id, and one that is not new is an original, edited. -/
structure Kept (originals items : List TimeAllocation) : Prop where
  nodup : (items.map TimeAllocation.id).Nodup
  edited : ∀ item ∈ items, item.id < 0 ∨ ∃ source ∈ originals, Edited source item

/-- The originals come from the server. -/
structure Stored (originals : List TimeAllocation) : Prop where
  nodup : (originals.map TimeAllocation.id).Nodup
  positive : ∀ source ∈ originals, 0 < source.id

variable {originals items : List TimeAllocation} {item source next current : TimeAllocation}
  {allocations : List ReceivedAllocation} {id : Int}

theorem Edited.id_eq (h : Edited source item) : item.id = source.id := by
  rw [h]

theorem Edited.refl (item : TimeAllocation) : Edited item item := rfl

/-- An edited original is edited again. -/
theorem Edited.edit (h : Edited source item) (startDate endDate phaseTaskName note : String) :
    Edited source { item with
      startDate := startDate
      endDate := endDate
      phaseTaskName := phaseTaskName
      note := note } := by
  unfold Edited at h ⊢
  rw [h]

theorem Kept.initial (h : Stored originals) : Kept originals originals where
  nodup := h.nodup
  edited := fun source hsource => .inr ⟨source, hsource, Edited.refl source⟩

theorem Kept.append (h : Kept originals items) (hneg : item.id < 0)
    (hfresh : ∀ other ∈ items, other.id ≠ item.id) : Kept originals (items ++ [item]) where
  nodup := by
    rw [List.map_append]
    refine List.nodup_append'.mpr ⟨h.nodup, List.nodup_singleton _, ?_⟩
    intro id hid hitem
    obtain rfl := List.mem_singleton.mp hitem
    obtain ⟨other, hother, heq⟩ := List.mem_map.mp hid
    exact hfresh other hother heq
  edited := by
    intro other hother
    rcases List.mem_append.mp hother with hother | hother
    · exact h.edited other hother
    · obtain rfl := List.mem_singleton.mp hother
      exact .inl hneg

theorem Kept.remove (h : Kept originals items) (id : Int) :
    Kept originals (removeItem items id) where
  nodup := h.nodup.sublist (List.filter_sublist.map TimeAllocation.id)
  edited := fun item hitem => h.edited item (List.mem_of_mem_filter hitem)

theorem replaceItem_ids : (replaceItem items next).map TimeAllocation.id
    = items.map TimeAllocation.id := by
  unfold replaceItem
  rw [List.map_map]
  refine List.map_congr_left ?_
  intro item _
  rw [Function.comp_apply]
  split
  · rename_i heq
    exact heq.symm
  · rfl

theorem Kept.replace (h : Kept originals items) (hcurrent : current ∈ items)
    (hnext : ∃ startDate endDate phaseTaskName note, next = { current with
      startDate := startDate
      endDate := endDate
      phaseTaskName := phaseTaskName
      note := note }) : Kept originals (replaceItem items next) where
  nodup := by
    rw [replaceItem_ids]
    exact h.nodup
  edited := by
    obtain ⟨startDate, endDate, phaseTaskName, note, rfl⟩ := hnext
    intro item hitem
    obtain ⟨other, hother, rfl⟩ := List.mem_map.mp hitem
    split
    · rcases h.edited current hcurrent with hneg | ⟨source, hsource, hedited⟩
      · exact .inl hneg
      · exact .inr ⟨source, hsource, hedited.edit startDate endDate phaseTaskName note⟩
    · exact h.edited other hother

theorem Kept.drag {view : View} {drag : BlockDrag} {dragged : List TimeAllocation}
    (h : Kept originals items) (hdrag : commitBlockDrag view items drag = some dragged) :
    Kept originals dragged := by
  unfold commitBlockDrag at hdrag
  split at hdrag
  · cases hdrag
  · rename_i allocation hfound
    have hid : allocation.id = drag.id := by simpa using List.find?_some hfound
    dsimp only at hdrag
    split at hdrag
    · cases hdrag
    · cases hdrag
      rw [← hid]
      exact @Kept.replace _ _ (drag.next view allocation) _ h (List.mem_of_find?_eq_some hfound)
        ⟨_, _, _, _, rfl⟩

theorem Kept.edit {editDraft : TimeAllocation} {changed : List TimeAllocation}
    (h : Kept originals items) (hedit : submitEditPopover items editDraft = .ok (some changed)) :
    Kept originals changed := by
  unfold submitEditPopover at hedit
  split at hedit
  · cases hedit
  · split at hedit
    · cases hedit
    · rename_i current hfound
      cases hedit
      exact h.replace (List.mem_of_find?_eq_some hfound) ⟨_, _, _, _, rfl⟩

/-! ## Every step keeps it -/

/-- What is shown, and what undo and redo can bring back. -/
structure Sound (originals : List TimeAllocation) (timeline : Timeline) : Prop where
  items : Kept originals timeline.items
  undo : ∀ l ∈ timeline.undoStack, Kept originals l
  redo : ∀ l ∈ timeline.redoStack, Kept originals l

/-- An event that takes a new item of this clock reading into the list. -/
def creates (chart : Chart) : Event → Option Int
  | .commitSelection page username startDay currentDay now =>
    (commitSelection page chart.timeline.items username startDay currentDay now).map fun _ => now
  | .handleManualAdd page now =>
    (handleManualAdd page chart.timeline.items now).toOption.map fun _ => now
  | _ => none

/-- The clock has moved since the items shown were created. -/
def Fresh (chart : Chart) (event : Event) : Prop :=
  ∀ now ∈ creates chart event, 0 < now ∧ ∀ item ∈ chart.timeline.items, item.id ≠ -now

variable {timeline : Timeline} {chart chart' : Chart} {event : Event}

theorem Sound.change (h : Sound originals timeline) (hitems : Kept originals items) :
    Sound originals (timeAllocationHistoryReducer timeline (.change items)) where
  items := hitems
  undo := by
    intro l hl
    rcases List.mem_append.mp hl with hl | hl
    · exact h.undo l hl
    · obtain rfl := List.mem_singleton.mp hl
      exact h.items
  redo := by
    intro l hl
    cases hl

theorem Sound.undone (h : Sound originals timeline) :
    Sound originals (timeAllocationHistoryReducer timeline .undo) := by
  unfold timeAllocationHistoryReducer
  dsimp only
  split
  · exact h
  · rename_i previous hlast
    refine ⟨h.undo previous (List.mem_of_getLast? hlast),
      fun l hl => h.undo l (List.mem_of_mem_dropLast hl), ?_⟩
    intro l hl
    rcases List.mem_append.mp hl with hl | hl
    · exact h.redo l hl
    · obtain rfl := List.mem_singleton.mp hl
      exact h.items

theorem Sound.redone (h : Sound originals timeline) :
    Sound originals (timeAllocationHistoryReducer timeline .redo) := by
  unfold timeAllocationHistoryReducer
  dsimp only
  split
  · exact h
  · rename_i next hlast
    refine ⟨h.redo next (List.mem_of_getLast? hlast), ?_,
      fun l hl => h.redo l (List.mem_of_mem_dropLast hl)⟩
    intro l hl
    rcases List.mem_append.mp hl with hl | hl
    · exact h.undo l hl
    · obtain rfl := List.mem_singleton.mp hl
      exact h.items

theorem commitSelection_id {page : Page} {username : String} {startDay currentDay now : Int}
    (h : commitSelection page items username startDay currentDay now = some item) :
    item.id = -now := by
  unfold commitSelection at h
  dsimp only at h
  split at h
  · cases h
  · cases h
    rfl

theorem handleManualAdd_id {page : Page} {now : Int}
    (h : handleManualAdd page items now = .ok item) : item.id = -now := by
  unfold handleManualAdd at h
  split at h
  · cases h
  · split at h
    · cases h
    · cases h
      rfl

theorem Sound.create (h : Sound originals timeline) {now : Int} (hid : item.id = -now)
    (hfresh : 0 < now ∧ ∀ item ∈ timeline.items, item.id ≠ -now) :
    Sound originals (timeAllocationHistoryReducer timeline (.change (timeline.items ++ [item]))) :=
  h.change (h.items.append (by omega) (by
    rw [hid]
    exact hfresh.2))

theorem step_sound (h : Sound originals chart.timeline) (hfresh : Fresh chart event)
    (hstep : step chart event = some (chart', ())) : Sound originals chart'.timeline := by
  cases event with
  | commitSelection page username startDay currentDay now =>
    unfold step at hstep
    dsimp only at hstep
    split at hstep
    · cases hstep
      exact h
    · rename_i item hitem
      cases hstep
      refine h.create (commitSelection_id hitem) (hfresh now ?_)
      unfold creates
      dsimp only
      rw [hitem]
      rfl
  | handleManualAdd page now =>
    unfold step at hstep
    dsimp only at hstep
    split at hstep
    · cases hstep
      exact h
    · rename_i item hitem
      cases hstep
      refine h.create (handleManualAdd_id hitem) (hfresh now ?_)
      unfold creates
      dsimp only
      rw [hitem]
      rfl
  | commitBlockDrag page drag =>
    unfold step at hstep
    dsimp only at hstep
    split at hstep
    · cases hstep
      exact h
    · rename_i items hitems
      cases hstep
      exact h.change (h.items.drag hitems)
  | submitEditPopover editDraft =>
    unfold step at hstep
    dsimp only at hstep
    split at hstep
    · cases hstep
      exact h
    · cases hstep
      exact h
    · rename_i items hitems
      cases hstep
      exact h.change (h.items.edit hitems)
  | handleGanttDoubleClick id =>
    cases hstep
    exact h.change (h.items.remove id)
  | undo =>
    unfold step at hstep
    dsimp only at hstep
    split at hstep
    · cases hstep
    · cases hstep
      exact h.undone
  | redo =>
    unfold step at hstep
    dsimp only at hstep
    split at hstep
    · cases hstep
    · cases hstep
      exact h.redone

theorem run_sound (hstored : Stored (allocations.map normalizeAllocation))
    {tr : List (Entry Chart Event Unit)} (h : Run step (Chart.initial allocations) tr chart)
    (hfresh : ∀ x ∈ tr, Fresh x.pre x.event) :
    Sound (allocations.map normalizeAllocation) chart.timeline := by
  refine h.invariant (C := Fresh)
    (I := fun chart => Sound (allocations.map normalizeAllocation) chart.timeline) ?_ ?_ hfresh
  · exact ⟨Kept.initial hstored, (fun l hl => nomatch hl), (fun l hl => nomatch hl)⟩
  · intro t e u o hi hc hstep
    exact step_sound hi hc hstep

/-! ## What saving does -/

theorem byId_eq_some (h : (items.map TimeAllocation.id).Nodup) :
    byId items id = some item ↔ item ∈ items ∧ item.id = id := by
  unfold byId
  constructor
  · intro hfound
    exact ⟨List.mem_reverse.mp (List.mem_of_find?_eq_some hfound),
      by simpa using List.find?_some hfound⟩
  · rintro ⟨hmem, rfl⟩
    have hnodup : (items.reverse.map TimeAllocation.id).Nodup := by
      rw [List.map_reverse, List.nodup_reverse]
      exact h
    have hfound := find?_of_mem hnodup (List.mem_reverse.mpr hmem)
    rw [← hfound]
    congr 1

/-- An edited original that is not sent is the original. -/
theorem eq_of_not_isUpdate (h : Edited source next) (hsame : isUpdate source next = false) :
    next = source := by
  unfold isUpdate at hsame
  simp only [Bool.or_eq_false_iff, decide_eq_false_iff_not, ne_eq, not_not] at hsame
  obtain ⟨⟨⟨⟨⟨⟨_, _⟩, hstart⟩, hend⟩, _⟩, hphase⟩, hnote⟩ := hsame
  rw [h, hstart, hend, hphase, hnote]

/-- What an original has become, if it is still there. -/
theorem applied_eq (horiginals : Stored originals) (h : Kept originals items)
    (hsource : source ∈ originals) (hnext : byId items source.id = some next) :
    ((originals.filterMap fun source =>
      match byId items source.id with
      | none => none
      | some next => if isUpdate source next then some next else none).find?
        fun updated => updated.id = source.id).getD source = next := by
  obtain ⟨hmem, hid⟩ := (byId_eq_some h.nodup).mp hnext
  have hedited : Edited source next := by
    rcases h.edited next hmem with hneg | ⟨source', hsource', hedited⟩
    · have := horiginals.positive source hsource
      omega
    · obtain rfl := eq_of_key horiginals.nodup hsource' hsource (hedited.id_eq.symm.trans hid)
      exact hedited
  cases hfind : (originals.filterMap fun source =>
      match byId items source.id with
      | none => none
      | some next => if isUpdate source next then some next else none).find?
        fun updated => updated.id = source.id with
  | none =>
    -- nothing is sent for it, so it is the original
    rw [Option.getD_none]
    refine (eq_of_not_isUpdate hedited (Bool.eq_false_iff.mpr fun hupdate => ?_)).symm
    refine List.find?_eq_none.mp hfind next (List.mem_filterMap.mpr ⟨source, hsource, ?_⟩)
      (decide_eq_true hid)
    rw [hnext]
    exact if_pos hupdate
  | some updated =>
    rw [Option.getD_some]
    have hkey : updated.id = source.id := by simpa using List.find?_some hfind
    obtain ⟨source', _, hsent⟩ := List.mem_filterMap.mp (List.mem_of_find?_eq_some hfind)
    split at hsent
    · cases hsent
    · rename_i next' hnext'
      obtain ⟨hmem', _⟩ := (byId_eq_some h.nodup).mp hnext'
      obtain ⟨_, heq⟩ := Option.ite_none_right_eq_some.mp hsent
      cases heq
      exact eq_of_key h.nodup hmem' hmem (hkey.trans hid.symm)

theorem deleted_iff (horiginals : Stored originals) (hsource : source ∈ originals) :
    ((originals.filter fun source => (byId items source.id).isNone).any fun deleted =>
      deleted.id = source.id) = true ↔ byId items source.id = none := by
  rw [List.any_eq_true]
  constructor
  · rintro ⟨deleted, hdeleted, hid⟩
    obtain ⟨hmem, hnone⟩ := List.mem_filter.mp hdeleted
    obtain rfl := eq_of_key horiginals.nodup hmem hsource (of_decide_eq_true hid)
    exact Option.isNone_iff_eq_none.mp hnone
  · intro hnone
    exact ⟨source, List.mem_filter.mpr ⟨hsource, Option.isNone_iff_eq_none.mpr hnone⟩,
      decide_eq_true rfl⟩

theorem mem_applyOperations (horiginals : Stored (allocations.map normalizeAllocation))
    (h : Kept (allocations.map normalizeAllocation) items) :
    item ∈ applyOperations (buildSaveOperations allocations items)
      (allocations.map normalizeAllocation) ↔ item ∈ items := by
  unfold applyOperations buildSaveOperations
  dsimp only
  generalize allocations.map normalizeAllocation = originals at horiginals h ⊢
  rw [List.mem_append, List.mem_map]
  constructor
  · rintro (⟨source, hsource, rfl⟩ | hcreated)
    · obtain ⟨hsource, hstays⟩ := List.mem_filter.mp hsource
      rw [Bool.not_eq_true', ← Bool.not_eq_true, deleted_iff horiginals hsource] at hstays
      obtain ⟨next, hnext⟩ := Option.ne_none_iff_exists'.mp hstays
      rw [applied_eq horiginals h hsource hnext]
      exact ((byId_eq_some h.nodup).mp hnext).1
    · exact List.mem_of_mem_filter hcreated
  · intro hitem
    rcases h.edited item hitem with hneg | ⟨source, hsource, hedited⟩
    · exact .inr (List.mem_filter.mpr ⟨hitem, decide_eq_true hneg⟩)
    · have hnext : byId items source.id = some item :=
        (byId_eq_some h.nodup).mpr ⟨hitem, hedited.id_eq⟩
      refine .inl ⟨source, List.mem_filter.mpr ⟨hsource, ?_⟩, applied_eq horiginals h hsource hnext⟩
      rw [Bool.not_eq_true', ← Bool.not_eq_true, deleted_iff horiginals hsource, hnext]
      exact Option.some_ne_none item

theorem applyOperations_nodup (horiginals : Stored (allocations.map normalizeAllocation))
    (h : Kept (allocations.map normalizeAllocation) items) :
    (applyOperations (buildSaveOperations allocations items)
      (allocations.map normalizeAllocation)).Nodup := by
  unfold applyOperations buildSaveOperations
  dsimp only
  generalize allocations.map normalizeAllocation = originals at horiginals h ⊢
  refine List.Nodup.of_map TimeAllocation.id ?_
  rw [List.map_append, List.map_map]
  have hids : ∀ sent : List TimeAllocation, (TimeAllocation.id ∘ fun item : TimeAllocation =>
      (sent.find? fun updated => updated.id = item.id).getD item) = TimeAllocation.id := by
    intro sent
    funext item
    rw [Function.comp_apply]
    cases hfind : sent.find? fun updated => updated.id = item.id with
    | none => rfl
    | some updated => simpa using List.find?_some hfind
  rw [hids]
  refine List.nodup_append'.mpr ⟨horiginals.nodup.sublist (List.filter_sublist.map _),
    h.nodup.sublist (List.filter_sublist.map _), ?_⟩
  intro id hstored hcreated
  obtain ⟨source, hsource, rfl⟩ := List.mem_map.mp hstored
  obtain ⟨item, hitem, hid⟩ := List.mem_map.mp hcreated
  have hpositive := horiginals.positive source (List.mem_of_mem_filter hsource)
  have hneg := of_decide_eq_true (List.mem_filter.mp hitem).2
  omega

theorem applyOperations_perm (horiginals : Stored (allocations.map normalizeAllocation))
    (h : Kept (allocations.map normalizeAllocation) items) :
    (applyOperations (buildSaveOperations allocations items)
      (allocations.map normalizeAllocation)).Perm items :=
  (List.perm_ext_iff_of_nodup (applyOperations_nodup horiginals h)
    (List.Nodup.of_map _ h.nodup)).mpr fun _ => mem_applyOperations horiginals h

/-! ## One item -/

theorem removeItem_eq_erase (h : (items.map TimeAllocation.id).Nodup) (hitem : item ∈ items) :
    removeItem items item.id = items.erase item := by
  rw [(List.Nodup.of_map _ h).erase_eq_filter]
  refine List.filter_congr ?_
  intro other hother
  rw [Bool.eq_iff_iff, decide_eq_true_iff, bne_iff_ne]
  constructor
  · intro hne heq
    exact hne (congrArg TimeAllocation.id heq)
  · intro hne hid
    exact hne (eq_of_key h hother hitem hid)

theorem replaceItem_eq (h : (items.map TimeAllocation.id).Nodup) (hitem : item ∈ items)
    (hnext : next.id = item.id) :
    replaceItem items next = items.map fun other => if other = item then next else other := by
  refine List.map_congr_left ?_
  intro other hother
  rw [hnext]
  by_cases heq : other = item
  · rw [heq, if_pos rfl, if_pos rfl]
  · rw [if_neg heq, if_neg fun hid => heq (eq_of_key h hother hitem hid)]

/-! ## Undo and redo -/

theorem redo_undo (h : timeline.undoStack ≠ []) :
    timeAllocationHistoryReducer (timeAllocationHistoryReducer timeline .undo) .redo
      = timeline := by
  have hlast := List.getLast?_eq_some_getLast h
  have hstack := List.dropLast_append_getLast h
  cases timeline with
  | mk items undoStack redoStack =>
    dsimp only at hlast hstack
    unfold timeAllocationHistoryReducer
    simp only [hlast, List.getLast?_concat, List.dropLast_concat, hstack]

theorem undo_length (timeline : Timeline) :
    (timeAllocationHistoryReducer timeline .undo).undoStack.length
      = timeline.undoStack.length - 1 := by
  cases timeline with
  | mk items undoStack redoStack =>
    unfold timeAllocationHistoryReducer
    dsimp only
    cases hlast : undoStack.getLast? with
    | none =>
      rw [List.getLast?_eq_none_iff.mp hlast]
      rfl
    | some previous => exact List.length_dropLast

/-- As many redos bring back what the undos took. -/
theorem redos_undos {k : Nat} (h : k ≤ timeline.undoStack.length) :
    (fun t => timeAllocationHistoryReducer t .redo)^[k]
      ((fun t => timeAllocationHistoryReducer t .undo)^[k] timeline) = timeline := by
  induction k generalizing timeline with
  | zero => rfl
  | succ k ih =>
    rw [Function.iterate_succ_apply' (fun t => timeAllocationHistoryReducer t .redo),
      Function.iterate_succ_apply (fun t => timeAllocationHistoryReducer t .undo), ih]
    · refine redo_undo ?_
      intro hempty
      rw [hempty] at h
      exact absurd h (Nat.not_succ_le_zero k)
    · rw [undo_length]
      omega

/-! ## The whole -/

/-- In a run whose new items take fresh clock readings: the operations make of the originals what is
shown, each item can be edited and deleted alone, and redo brings back what undo took. -/
theorem saved_exactly (hnodup : (allocations.map ReceivedAllocation.id).Nodup)
    (hpositive : ∀ allocation ∈ allocations, 0 < allocation.id) {tr : List (Entry Chart Event Unit)}
    (h : Run step (Chart.initial allocations) tr chart) (hfresh : ∀ x ∈ tr, Fresh x.pre x.event) :
    (applyOperations (buildSaveOperations allocations chart.timeline.items)
        (allocations.map normalizeAllocation)).Perm chart.timeline.items
      ∧ (chart.timeline.items.map TimeAllocation.id).Nodup
      ∧ (∀ item ∈ chart.timeline.items,
          removeItem chart.timeline.items item.id = chart.timeline.items.erase item
            ∧ ∀ next, next.id = item.id → replaceItem chart.timeline.items next
              = chart.timeline.items.map fun other => if other = item then next else other)
      ∧ ∀ k ≤ chart.timeline.undoStack.length,
          (fun t => timeAllocationHistoryReducer t .redo)^[k]
            ((fun t => timeAllocationHistoryReducer t .undo)^[k] chart.timeline)
            = chart.timeline := by
  have hstored : Stored (allocations.map normalizeAllocation) := by
    refine ⟨?_, ?_⟩
    · rw [List.map_map]
      exact hnodup
    · intro source hsource
      obtain ⟨allocation, hallocation, rfl⟩ := List.mem_map.mp hsource
      exact hpositive allocation hallocation
  have hkept := (run_sound hstored h hfresh).items
  refine ⟨applyOperations_perm hstored hkept, hkept.nodup, ?_, fun k hk => redos_undos hk⟩
  intro item hitem
  exact ⟨removeItem_eq_erase hkept.nodup hitem,
    fun next hnext => replaceItem_eq hkept.nodup hitem hnext⟩

/-! ## Two items of one clock reading -/

def blankPage : Page where
  view := january
  projects := []
  members := []
  viewScopeAll := true
  currentUsername := ""
  selectedProjectKey := "YC"
  selectedMemberUsername := "lin"
  manualStart := "2026-01-05"
  manualEnd := "2026-01-06"
  manualTaskName := ""

def received : ReceivedAllocation where
  id := 7
  projectKey := "YC"
  projectName := some "Yuance"
  username := "lin"
  displayName := none
  startDate := "2026-01-03"
  endDate := "2026-01-09"
  dailyHours := none
  phaseTaskName := none
  note := some ""

instance (chart : Chart) (event : Event) : Decidable (Fresh chart event) :=
  inferInstanceAs (Decidable (∀ now ∈ creates chart event, _))

/-- An item is added, the block of the original is moved, and this is undone. -/
def addAndMove : List Event :=
  [.handleManualAdd blankPage 1785576600000,
    .commitBlockDrag blankPage
      { id := 7, mode := .move, startX := 0, startIndex := 2, endIndex := 8, nextStart := 4
        nextEnd := 10 },
    .undo]

theorem addAndMove_saved : ∃ tr chart,
    exec step (Chart.initial [received]) addAndMove = some (tr, chart)
    ∧ (applyOperations (buildSaveOperations [received] chart.timeline.items)
        [normalizeAllocation received]).Perm chart.timeline.items := by
  obtain ⟨⟨tr, chart⟩, hrun⟩ : ∃ result,
      exec step (Chart.initial [received]) addAndMove = some result :=
    Option.isSome_iff_exists.mp (by decide +kernel)
  refine ⟨tr, chart, hrun, ?_⟩
  have hfresh := tested_exec (C := Fresh) (c := fun chart event => decide (Fresh chart event)) hrun
    (fun chart event h => of_decide_eq_true h) (by decide +kernel)
  have hpositive : ∀ allocation ∈ [received], 0 < allocation.id := by decide
  exact (@saved_exactly [received] chart (by decide) hpositive tr (run_of_exec hrun) hfresh).1

/-- Two items are added within one millisecond. -/
def addTwice : List Event :=
  [.handleManualAdd blankPage 1785576600000,
    .handleManualAdd { blankPage with manualStart := "2026-01-06" } 1785576600000]

/-- Both have one id, and deleting one deletes the other. -/
theorem second_item_is_deleted_too :
    (exec step (Chart.initial []) addTwice).map (fun result =>
        result.2.timeline.items.map fun item => (item.id, item.startDate))
      = some [(-1785576600000, "2026-01-05"), (-1785576600000, "2026-01-06")]
    ∧ (exec step (Chart.initial []) (addTwice ++ [.handleGanttDoubleClick (-1785576600000)])).map
        (fun result => result.2.timeline.items) = some [] := by
  decide +kernel

end Schedule
end Yuance
