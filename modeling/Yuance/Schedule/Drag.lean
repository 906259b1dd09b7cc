import Yuance.Schedule.Dates
import Yuance.Schedule.Items

/-!
# Yuance.Schedule.Drag

Dragging a block of `time-allocation-gantt.jsx`: `beginBlockDrag`, `updateBlockDrag` at every
position of the pointer, `commitBlockDrag`. Positions and widths are rationals.

* `dragBlock`: a drag from the first position to the last.
* `dragged_eq`: only the last position counts.
* `dragBlock_follows_iff`: when the block written is what the hand asked for.
-/

namespace Yuance
namespace Schedule

open Lib

inductive DragMode where
  | move
  | resizeL
  | resizeR
  deriving DecidableEq, Repr

/-- The visible range. -/
structure View where
  computedViewStart : String
  computedViewEnd : String
  deriving DecidableEq, Repr

def View.totalDays (view : View) : Int :=
  dayIndex view.computedViewEnd view.computedViewStart + 1

/-- `blockDragRef.current`. -/
structure BlockDrag where
  id : Int
  mode : DragMode
  startX : Rat
  startIndex : Int
  endIndex : Int
  nextStart : Int
  nextEnd : Int
  deriving DecidableEq, Repr

/-! ## The functions -/

def beginBlockDrag (view : View) (items : List TimeAllocation) (id : Int) (mode : DragMode)
    (clientX : Rat) : Option BlockDrag :=
  (items.find? fun item => item.id = id).map fun allocation =>
    let startIndex := dayIndex allocation.startDate view.computedViewStart
    let endIndex := dayIndex allocation.endDate view.computedViewStart
    { id := id
      mode := mode
      startX := clientX
      startIndex := startIndex
      endIndex := endIndex
      nextStart := startIndex
      nextEnd := endIndex }

/-- The days between two positions. -/
def dayDelta (pxPerDay startX clientX : Rat) : Int := mathRound ((clientX - startX) / pxPerDay)

def updateBlockDrag (view : View) (pxPerDay : Rat) (drag : BlockDrag) (clientX : Rat) : BlockDrag :=
  let deltaDays := dayDelta pxPerDay drag.startX clientX
  match drag.mode with
  | .move =>
    let length := drag.endIndex - drag.startIndex
    let nextStart := max 0 (min (drag.startIndex + deltaDays) (view.totalDays - length - 1))
    { drag with nextStart := nextStart, nextEnd := nextStart + length }
  | .resizeL =>
    { drag with
      nextStart := max 0 (min (drag.startIndex + deltaDays) (drag.endIndex - 1))
      nextEnd := drag.endIndex }
  | .resizeR =>
    { drag with
      nextStart := drag.startIndex
      nextEnd := min (view.totalDays - 1) (max (drag.endIndex + deltaDays) (drag.startIndex + 1)) }

/-- The allocation on the days that the drag has come to. -/
def BlockDrag.next (view : View) (drag : BlockDrag) (allocation : TimeAllocation) :
    TimeAllocation :=
  { allocation with
    startDate := dateFromDay drag.nextStart view.computedViewStart
    endDate := dateFromDay drag.nextEnd view.computedViewStart }

/-- The items that are dispatched as a change, if any. -/
def commitBlockDrag (view : View) (items : List TimeAllocation) (drag : BlockDrag) :
    Option (List TimeAllocation) :=
  match items.find? fun item => item.id = drag.id with
  | none => none
  | some allocation =>
    let next := drag.next view allocation
    if allocation.startDate = next.startDate ∧ allocation.endDate = next.endDate then none
    else some (items.map fun item => if item.id = drag.id then next else item)

/-- A drag along `positions`, and the items behind it. -/
def dragBlock (view : View) (pxPerDay : Rat) (items : List TimeAllocation) (id : Int)
    (mode : DragMode) (startX : Rat) (positions : List Rat) : List TimeAllocation :=
  match beginBlockDrag view items id mode startX with
  | none => items
  | some drag =>
    (commitBlockDrag view items (positions.foldl (updateBlockDrag view pxPerDay) drag)).getD items

/-! ## What the hand asks for -/

/-- The allocation lasts from the day `first` to the day `last`. -/
structure Lasts (allocation : TimeAllocation) (first last : Int) : Prop where
  startDate : allocation.startDate = dateText first
  endDate : allocation.endDate = dateText last
  firstInRange : InRange first
  lastInRange : InRange last
  ordered : first ≤ last

/-- The block written is the block dragged, `delta` days away from its place. -/
structure Follows (mode : DragMode) (delta : Int) (allocation written : TimeAllocation) : Prop where
  ordered : written.startDate ≤ written.endDate
  length : mode = .move → ∃ first last first' last', Lasts allocation first last
    ∧ Lasts written first' last' ∧ last' - first' = last - first
  rightEdge : mode = .resizeL → written.endDate = allocation.endDate
  leftEdge : mode = .resizeR → written.startDate = allocation.startDate
  still : delta = 0 → written = allocation

/-- The first day of the year 100. -/
def firstReadable : Int := -683003

/-- The last day of the year 9999. -/
def lastDay : Int := 2932896

/-- The limits leave a block alone that is not moved. -/
def RestsInView (view : View) (mode : DragMode) (startIndex endIndex : Int) : Prop :=
  match mode with
  | .move => 0 ≤ startIndex ∧ (endIndex < view.totalDays ∨ startIndex = 0)
  | .resizeL => 0 ≤ startIndex ∧ (startIndex < endIndex ∨ startIndex = 0)
  | .resizeR => endIndex < view.totalDays
      ∧ (startIndex < endIndex ∨ endIndex = view.totalDays - 1)

/-- The edge that is not dragged is a date that is read as it is written, and is on the right side
of the limit; a block that is moved is as long as its dates say. -/
def Movable (view : View) (mode : DragMode) (first last startIndex endIndex : Int) : Prop :=
  match mode with
  | .move => endIndex - startIndex = last - first
      ∧ readDay view.computedViewStart + (last - first) ≤ lastDay
  | .resizeL => firstReadable ≤ last ∧ 0 ≤ endIndex
  | .resizeR => firstReadable ≤ first ∧ startIndex < view.totalDays

/-- Where the pointer is let go, in days from where it was set down. -/
def lastDelta (pxPerDay startX : Rat) (positions : List Rat) : Int :=
  match positions.getLast? with
  | none => 0
  | some clientX => dayDelta pxPerDay startX clientX

/-- When the drag does what the hand did. -/
def HandFollowed (view : View) (mode : DragMode) (first last startIndex endIndex : Int)
    (moved : Prop) (delta : Int) : Prop :=
  (delta = 0 → firstReadable ≤ first ∧ (moved → RestsInView view mode startIndex endIndex))
    ∧ (delta ≠ 0 → Movable view mode first last startIndex endIndex)

/-! ## One drag -/

variable {view : View} {pxPerDay startX : Rat} {items : List TimeAllocation} {id : Int}
  {mode : DragMode} {positions : List Rat} {allocation : TimeAllocation} {drag : BlockDrag}
  {first last viewFirst viewLast : Int}

theorem updateBlockDrag_update (drag : BlockDrag) (x y : Rat) :
    updateBlockDrag view pxPerDay (updateBlockDrag view pxPerDay drag x) y
      = updateBlockDrag view pxPerDay drag y := by
  cases drag with
  | mk id mode startX startIndex endIndex nextStart nextEnd =>
    cases mode
    · rfl
    · rfl
    · rfl

/-- Only the last position counts. -/
theorem updates_concat (drag : BlockDrag) (positions : List Rat) (x : Rat) :
    (positions ++ [x]).foldl (updateBlockDrag view pxPerDay) drag
      = updateBlockDrag view pxPerDay drag x := by
  have hall : ∀ drag, updateBlockDrag view pxPerDay
      (positions.foldl (updateBlockDrag view pxPerDay) drag) x
        = updateBlockDrag view pxPerDay drag x := by
    induction positions with
    | nil =>
      intro drag
      rfl
    | cons y positions ih =>
      intro drag
      rw [List.foldl_cons, ih, updateBlockDrag_update]
  rw [List.foldl_append, List.foldl_cons, List.foldl_nil, hall]

/-! ## The days written -/

/-- What `parseDate` reads from a date is a day of the years 100 to 9999. -/
theorem next_lasts_iff {first' last' : Int} :
    Lasts (drag.next view allocation) first' last'
      ↔ InRange first' ∧ InRange last' ∧ first' ≤ last'
        ∧ readDay view.computedViewStart + drag.nextStart = first'
        ∧ readDay view.computedViewStart + drag.nextEnd = last' := by
  constructor
  · intro h
    have hstart := h.startDate
    have hend := h.endDate
    unfold BlockDrag.next at hstart hend
    dsimp only at hstart hend
    rw [dateFromDay_eq, isoDate_eq_dateText h.firstInRange] at hstart
    rw [dateFromDay_eq, isoDate_eq_dateText h.lastInRange] at hend
    exact ⟨h.firstInRange, h.lastInRange, h.ordered, hstart, hend⟩
  · rintro ⟨hfirst, hlast, hordered, hstart, hend⟩
    refine ⟨?_, ?_, hfirst, hlast, hordered⟩
    · unfold BlockDrag.next
      dsimp only
      rw [dateFromDay_eq, isoDate_eq_dateText hfirst]
      exact hstart
    · unfold BlockDrag.next
      dsimp only
      rw [dateFromDay_eq, isoDate_eq_dateText hlast]
      exact hend

theorem Lasts.unique {first' last' : Int} (h : Lasts allocation first last)
    (h' : Lasts allocation first' last') : first' = first ∧ last' = last :=
  ⟨(dateText_inj h'.firstInRange h.firstInRange).mp (h'.startDate.symm.trans h.startDate),
    (dateText_inj h'.lastInRange h.lastInRange).mp (h'.endDate.symm.trans h.endDate)⟩

theorem next_eq_self_iff (h : Lasts allocation first last) : drag.next view allocation = allocation
    ↔ readDay view.computedViewStart + drag.nextStart = first
      ∧ readDay view.computedViewStart + drag.nextEnd = last := by
  constructor
  · intro heq
    have hnext : Lasts (drag.next view allocation) first last := by rwa [heq]
    exact (next_lasts_iff.mp hnext).2.2.2
  · intro hdays
    have hnext : Lasts (drag.next view allocation) first last :=
      next_lasts_iff.mpr ⟨h.firstInRange, h.lastInRange, h.ordered, hdays⟩
    have hstart := hnext.startDate.trans h.startDate.symm
    have hend := hnext.endDate.trans h.endDate.symm
    unfold BlockDrag.next at hstart hend ⊢
    dsimp only at hstart hend
    rw [hstart, hend]

theorem Follows.refl (h : Lasts allocation first last) (mode : DragMode) (delta : Int) :
    Follows mode delta allocation allocation where
  ordered := by
    rw [h.startDate, h.endDate, dateText_le_iff h.firstInRange h.lastInRange]
    exact h.ordered
  length := fun _ => ⟨first, last, first, last, h, h, rfl⟩
  rightEdge := fun _ => rfl
  leftEdge := fun _ => rfl
  still := fun _ => rfl

/-- The days that the code reads from the dates of the allocation and of the view. -/
structure Reads (view : View) (allocation : TimeAllocation)
    (first last viewStart viewEnd start finish : Int) : Prop where
  readViewStart : readDay view.computedViewStart = viewStart
  readViewEnd : readDay view.computedViewEnd = viewEnd
  readStart : readDay allocation.startDate = start
  readFinish : readDay allocation.endDate = finish
  viewStartRange : firstReadable ≤ viewStart ∧ viewStart ≤ lastDay
  viewEndRange : firstReadable ≤ viewEnd ∧ viewEnd ≤ lastDay
  startRange : firstReadable ≤ start ∧ start ≤ lastDay
  finishRange : firstReadable ≤ finish ∧ finish ≤ lastDay
  startKept : firstReadable ≤ first → start = first
  finishKept : firstReadable ≤ last → finish = last

theorem readDay_range {day : Int} (h : InRange day) :
    firstReadable ≤ readDay (dateText day) ∧ readDay (dateText day) ≤ lastDay := by
  have hrange := inRange_iff.mp h
  unfold firstReadable lastDay
  by_cases hyear : -683003 ≤ day
  · rw [readDay_dateText h hyear]
    omega
  · have := readDay_short h (by omega)
    omega

theorem reads (h : Lasts allocation first last)
    (hview : view.computedViewStart = dateText viewFirst)
    (hviewEnd : view.computedViewEnd = dateText viewLast) (hfirst : InRange viewFirst)
    (hlast : InRange viewLast) : Reads view allocation first last
      (readDay view.computedViewStart) (readDay view.computedViewEnd)
      (readDay allocation.startDate) (readDay allocation.endDate) where
  readViewStart := rfl
  readViewEnd := rfl
  readStart := rfl
  readFinish := rfl
  viewStartRange := by
    rw [hview]
    exact readDay_range hfirst
  viewEndRange := by
    rw [hviewEnd]
    exact readDay_range hlast
  startRange := by
    rw [h.startDate]
    exact readDay_range h.firstInRange
  finishRange := by
    rw [h.endDate]
    exact readDay_range h.lastInRange
  startKept := by
    intro hyear
    rw [h.startDate, readDay_dateText h.firstInRange hyear]
  finishKept := by
    intro hyear
    rw [h.endDate, readDay_dateText h.lastInRange hyear]

/-- A block that is set down before the pointer has moved. -/
theorem follows_unmoved {viewStart viewEnd start finish : Int} (h : Lasts allocation first last)
    (hreads : Reads view allocation first last viewStart viewEnd start finish)
    (hstart : drag.nextStart = start - viewStart) (hend : drag.nextEnd = finish - viewStart) :
    Follows mode 0 allocation (drag.next view allocation) ↔ firstReadable ≤ first := by
  have hstartRange := hreads.startRange
  have hordered := h.ordered
  constructor
  · intro hfollows
    have hself := (next_eq_self_iff h).mp (hfollows.still rfl)
    rw [hreads.readViewStart, hstart] at hself
    omega
  · intro hreadable
    have hfirst := hreads.startKept hreadable
    have hlast := hreads.finishKept (by omega)
    have hself : drag.next view allocation = allocation := by
      rw [next_eq_self_iff h, hreads.readViewStart, hstart, hend]
      omega
    rw [hself]
    exact Follows.refl h mode 0

theorem follows_move {viewStart viewEnd start finish delta : Int} (h : Lasts allocation first last)
    (hreads : Reads view allocation first last viewStart viewEnd start finish)
    (hstart : drag.nextStart = max 0 (min (start - viewStart + delta)
      (viewEnd - viewStart + 1 - (finish - start) - 1)))
    (hend : drag.nextEnd = drag.nextStart + (finish - start)) :
    Follows .move delta allocation (drag.next view allocation)
      ↔ HandFollowed view .move first last (start - viewStart) (finish - viewStart) True delta := by
  have hviewStart := hreads.viewStartRange
  have hviewEnd := hreads.viewEndRange
  have hfirst := inRange_iff.mp h.firstInRange
  have hlast := inRange_iff.mp h.lastInRange
  have hordered := h.ordered
  have htotal : view.totalDays = viewEnd - viewStart + 1 := by
    unfold View.totalDays
    rw [dayIndex_eq, hreads.readViewStart, hreads.readViewEnd]
  unfold HandFollowed RestsInView Movable
  dsimp only
  rw [htotal, hreads.readViewStart]
  constructor
  · intro hfollows
    obtain ⟨f, l, f', l', hlasts, hnext, hlength⟩ := hfollows.length rfl
    obtain ⟨rfl, rfl⟩ := h.unique hlasts
    obtain ⟨_, hrange, _, hf, hl⟩ := next_lasts_iff.mp hnext
    rw [inRange_iff] at hrange
    rw [hreads.readViewStart] at hf hl
    refine ⟨?_, ?_⟩
    · intro hzero
      have hself := (next_eq_self_iff h).mp (hfollows.still hzero)
      rw [hreads.readViewStart] at hself
      have hreadable : firstReadable ≤ f := by omega
      have hstartRead := hreads.startKept hreadable
      have hfinishRead := hreads.finishKept (by omega)
      refine ⟨hreadable, fun _ => ?_⟩
      omega
    · intro _
      unfold lastDay
      omega
  · rintro ⟨hrest, hmove⟩
    by_cases hzero : delta = 0
    · obtain ⟨hreadable, hrest⟩ := hrest hzero
      have hrest := hrest trivial
      have hstartRead := hreads.startKept hreadable
      have hfinishRead := hreads.finishKept (by omega)
      have hself : drag.next view allocation = allocation := by
        rw [next_eq_self_iff h, hreads.readViewStart]
        omega
      rw [hself]
      exact Follows.refl h .move delta
    · obtain ⟨hlength, hfits⟩ := hmove hzero
      unfold firstReadable at hviewStart
      unfold lastDay at hfits hviewEnd hviewStart
      have hnext : Lasts (drag.next view allocation) (viewStart + drag.nextStart)
          (viewStart + drag.nextEnd) := by
        rw [next_lasts_iff, inRange_iff, inRange_iff, hreads.readViewStart]
        omega
      refine ⟨?_, fun _ => ⟨first, last, _, _, h, hnext, by omega⟩, ?_, ?_, ?_⟩
      · rw [hnext.startDate, hnext.endDate, dateText_le_iff hnext.firstInRange hnext.lastInRange]
        exact hnext.ordered
      · intro hmode
        cases hmode
      · intro hmode
        cases hmode
      · intro hdelta
        exact absurd hdelta hzero

theorem next_startDate_iff (h : Lasts allocation first last) :
    (drag.next view allocation).startDate = allocation.startDate
      ↔ readDay view.computedViewStart + drag.nextStart = first := by
  unfold BlockDrag.next
  dsimp only
  rw [h.startDate, dateFromDay_eq, isoDate_eq_dateText h.firstInRange]

theorem next_endDate_iff (h : Lasts allocation first last) :
    (drag.next view allocation).endDate = allocation.endDate
      ↔ readDay view.computedViewStart + drag.nextEnd = last := by
  unfold BlockDrag.next
  dsimp only
  rw [h.endDate, dateFromDay_eq, isoDate_eq_dateText h.lastInRange]

theorem next_ordered_iff (hstart : InRange (readDay view.computedViewStart + drag.nextStart))
    (hend : InRange (readDay view.computedViewStart + drag.nextEnd)) :
    (drag.next view allocation).startDate ≤ (drag.next view allocation).endDate
      ↔ drag.nextStart ≤ drag.nextEnd := by
  unfold BlockDrag.next
  dsimp only
  rw [dateFromDay_of_inRange hstart, dateFromDay_of_inRange hend, dateText_le_iff hstart hend]
  omega

theorem follows_resizeL {viewStart viewEnd start finish delta : Int}
    (h : Lasts allocation first last)
    (hreads : Reads view allocation first last viewStart viewEnd start finish)
    (hstart : drag.nextStart = max 0 (min (start - viewStart + delta) (finish - viewStart - 1)))
    (hend : drag.nextEnd = finish - viewStart) :
    Follows .resizeL delta allocation (drag.next view allocation)
      ↔ HandFollowed view .resizeL first last (start - viewStart) (finish - viewStart) True
        delta := by
  have hviewStart := hreads.viewStartRange
  have hfinish := hreads.finishRange
  have hordered := h.ordered
  have hrange := @next_ordered_iff view allocation drag
    (by
      rw [hreads.readViewStart, inRange_iff]
      unfold firstReadable lastDay at hviewStart hfinish
      omega)
    (by
      rw [hreads.readViewStart, inRange_iff]
      unfold firstReadable lastDay at hfinish
      omega)
  unfold HandFollowed RestsInView Movable
  dsimp only
  constructor
  · intro hfollows
    have hedge := (next_endDate_iff h).mp (hfollows.rightEdge rfl)
    have hle := hrange.mp hfollows.ordered
    rw [hreads.readViewStart] at hedge
    refine ⟨?_, ?_⟩
    · intro hzero
      have hself := (next_eq_self_iff h).mp (hfollows.still hzero)
      rw [hreads.readViewStart] at hself
      have hreadable : firstReadable ≤ first := by omega
      have hstartRead := hreads.startKept hreadable
      refine ⟨hreadable, fun _ => ?_⟩
      omega
    · intro _
      omega
  · rintro ⟨hrest, hmove⟩
    by_cases hzero : delta = 0
    · obtain ⟨hreadable, hrest⟩ := hrest hzero
      have hrest := hrest trivial
      have hstartRead := hreads.startKept hreadable
      have hfinishRead := hreads.finishKept (by omega)
      have hself : drag.next view allocation = allocation := by
        rw [next_eq_self_iff h, hreads.readViewStart]
        omega
      rw [hself]
      exact Follows.refl h .resizeL delta
    · obtain ⟨hreadable, hedge⟩ := hmove hzero
      have hfinishRead := hreads.finishKept hreadable
      refine ⟨hrange.mpr (by omega), ?_, fun _ => ?_, ?_, ?_⟩
      · intro hmode
        cases hmode
      · rw [next_endDate_iff h, hreads.readViewStart]
        omega
      · intro hmode
        cases hmode
      · intro hdelta
        exact absurd hdelta hzero

theorem follows_resizeR {viewStart viewEnd start finish delta : Int}
    (h : Lasts allocation first last)
    (hreads : Reads view allocation first last viewStart viewEnd start finish)
    (hstart : drag.nextStart = start - viewStart)
    (hend : drag.nextEnd = min (viewEnd - viewStart) (max (finish - viewStart + delta)
      (start - viewStart + 1))) :
    Follows .resizeR delta allocation (drag.next view allocation)
      ↔ HandFollowed view .resizeR first last (start - viewStart) (finish - viewStart) True
        delta := by
  have hviewStart := hreads.viewStartRange
  have hviewEnd := hreads.viewEndRange
  have hstartRange := hreads.startRange
  have hordered := h.ordered
  have htotal : view.totalDays = viewEnd - viewStart + 1 := by
    unfold View.totalDays
    rw [dayIndex_eq, hreads.readViewStart, hreads.readViewEnd]
  have hrange := @next_ordered_iff view allocation drag
    (by
      rw [hreads.readViewStart, inRange_iff]
      unfold firstReadable lastDay at hstartRange
      omega)
    (by
      rw [hreads.readViewStart, inRange_iff]
      unfold firstReadable lastDay at hstartRange hviewEnd
      omega)
  unfold HandFollowed RestsInView Movable
  dsimp only
  rw [htotal]
  constructor
  · intro hfollows
    have hedge := (next_startDate_iff h).mp (hfollows.leftEdge rfl)
    have hle := hrange.mp hfollows.ordered
    rw [hreads.readViewStart] at hedge
    have hreadable : firstReadable ≤ first := by omega
    have hfinishRead := hreads.finishKept (by omega)
    refine ⟨?_, ?_⟩
    · intro hzero
      have hself := (next_eq_self_iff h).mp (hfollows.still hzero)
      rw [hreads.readViewStart] at hself
      refine ⟨hreadable, fun _ => ?_⟩
      omega
    · intro _
      omega
  · rintro ⟨hrest, hmove⟩
    by_cases hzero : delta = 0
    · obtain ⟨hreadable, hrest⟩ := hrest hzero
      have hrest := hrest trivial
      have hstartRead := hreads.startKept hreadable
      have hfinishRead := hreads.finishKept (by omega)
      have hself : drag.next view allocation = allocation := by
        rw [next_eq_self_iff h, hreads.readViewStart]
        omega
      rw [hself]
      exact Follows.refl h .resizeR delta
    · obtain ⟨hreadable, hedge⟩ := hmove hzero
      have hstartRead := hreads.startKept hreadable
      refine ⟨hrange.mpr (by omega), ?_, ?_, fun _ => ?_, ?_⟩
      · intro hmode
        cases hmode
      · intro hmode
        cases hmode
      · rw [next_startDate_iff h, hreads.readViewStart]
        omega
      · intro hdelta
        exact absurd hdelta hzero

/-! ## The items behind a drag -/

theorem find?_replaced {next : TimeAllocation} (hnext : next.id = id)
    (hfound : items.find? (fun item => item.id = id) = some allocation) :
    (items.map fun item => if item.id = id then next else item).find? (fun item => item.id = id)
      = some next := by
  rw [List.find?_map]
  have hsame : ((fun item : TimeAllocation => decide (item.id = id)) ∘
      fun item : TimeAllocation => if item.id = id then next else item)
        = fun item : TimeAllocation => decide (item.id = id) := by
    funext item
    rw [Function.comp_apply]
    by_cases hid : item.id = id
    · rw [if_pos hid, hnext, hid]
    · rw [if_neg hid]
  have hid : allocation.id = id := by simpa using List.find?_some hfound
  rw [hsame, hfound, Option.map_some, if_pos hid]

/-- The block is found again, on the days that the drag has come to. -/
theorem find?_committed (hdrag : drag.id = id)
    (hfound : items.find? (fun item => item.id = id) = some allocation) :
    ((commitBlockDrag view items drag).getD items).find? (fun item => item.id = id)
      = some (drag.next view allocation) := by
  subst hdrag
  have hid : allocation.id = drag.id := by simpa using List.find?_some hfound
  unfold commitBlockDrag
  rw [hfound]
  dsimp only
  split
  · rename_i hsame
    have hself : drag.next view allocation = allocation := by
      unfold BlockDrag.next at hsame ⊢
      dsimp only at hsame
      rw [← hsame.1, ← hsame.2]
    rw [Option.getD_none, hfound, hself]
  · exact find?_replaced hid hfound

/-! ## The whole drag -/

/-- A drag as `beginBlockDrag` starts it. -/
theorem beginBlockDrag_eq (hfound : items.find? (fun item => item.id = id) = some allocation) :
    beginBlockDrag view items id mode startX = some
      { id := id
        mode := mode
        startX := startX
        startIndex := readDay allocation.startDate - readDay view.computedViewStart
        endIndex := readDay allocation.endDate - readDay view.computedViewStart
        nextStart := readDay allocation.startDate - readDay view.computedViewStart
        nextEnd := readDay allocation.endDate - readDay view.computedViewStart } := by
  unfold beginBlockDrag
  rw [hfound, Option.map_some, dayIndex_eq, dayIndex_eq]

theorem totalDays_eq (view : View) : view.totalDays
    = readDay view.computedViewEnd - readDay view.computedViewStart + 1 := by
  unfold View.totalDays
  rw [dayIndex_eq]

theorem updateBlockDrag_id (drag : BlockDrag) (x : Rat) :
    (updateBlockDrag view pxPerDay drag x).id = drag.id := by
  cases drag with
  | mk id mode startX startIndex endIndex nextStart nextEnd =>
    cases mode
    · rfl
    · rfl
    · rfl

theorem updates_id (drag : BlockDrag) (positions : List Rat) :
    (positions.foldl (updateBlockDrag view pxPerDay) drag).id = drag.id := by
  induction positions generalizing drag with
  | nil => rfl
  | cons x positions ih => rw [List.foldl_cons, ih, updateBlockDrag_id]

/-- A block that the pointer has been moved with. -/
theorem follows_update (h : Lasts allocation first last)
    (hview : view.computedViewStart = dateText viewFirst)
    (hviewEnd : view.computedViewEnd = dateText viewLast) (hfirst : InRange viewFirst)
    (hlast : InRange viewLast) (clientX : Rat) {nextStart nextEnd : Int} :
    Follows mode (dayDelta pxPerDay startX clientX) allocation ((updateBlockDrag view pxPerDay
      { id := id
        mode := mode
        startX := startX
        startIndex := readDay allocation.startDate - readDay view.computedViewStart
        endIndex := readDay allocation.endDate - readDay view.computedViewStart
        nextStart := nextStart
        nextEnd := nextEnd } clientX).next view allocation)
      ↔ HandFollowed view mode first last
        (readDay allocation.startDate - readDay view.computedViewStart)
        (readDay allocation.endDate - readDay view.computedViewStart) True
        (dayDelta pxPerDay startX clientX) := by
  have hreads := reads h hview hviewEnd hfirst hlast
  have htotal := totalDays_eq view
  unfold updateBlockDrag
  cases mode with
  | move =>
    refine follows_move h hreads ?_ ?_
    · dsimp only
      rw [htotal]
      congr 2
      omega
    · dsimp only
      omega
  | resizeL => exact follows_resizeL h hreads rfl rfl
  | resizeR =>
    refine follows_resizeR h hreads rfl ?_
    dsimp only
    rw [htotal, Int.add_sub_cancel]

/-- When the block that is written is what the hand asked for; and a date is found again from its
day, and a day from its date. -/
theorem dragBlock_follows_iff (hfound : items.find? (fun item => item.id = id) = some allocation)
    (h : Lasts allocation first last) (hview : view.computedViewStart = dateText viewFirst)
    (hviewEnd : view.computedViewEnd = dateText viewLast) (hfirst : InRange viewFirst)
    (hlast : InRange viewLast) :
    (∃ written, (dragBlock view pxPerDay items id mode startX positions).find?
        (fun item => item.id = id) = some written
      ∧ (Follows mode (lastDelta pxPerDay startX positions) allocation written
        ↔ HandFollowed view mode first last
          (dayIndex allocation.startDate view.computedViewStart)
          (dayIndex allocation.endDate view.computedViewStart) (positions ≠ [])
          (lastDelta pxPerDay startX positions)))
      ∧ (∀ day viewStart, firstReadable ≤ day → InRange day →
        dateFromDay (dayIndex (dateText day) viewStart) viewStart = dateText day)
      ∧ ∀ index viewStart, firstReadable ≤ readDay viewStart + index →
        InRange (readDay viewStart + index) →
          dayIndex (dateFromDay index viewStart) viewStart = index := by
  refine ⟨?_, fun day viewStart hyear hday => dateFromDay_dayIndex hday hyear viewStart,
    fun index viewStart hyear hday => dayIndex_dateFromDay hday hyear⟩
  unfold dragBlock
  rw [beginBlockDrag_eq hfound, dayIndex_eq, dayIndex_eq]
  dsimp only
  refine ⟨_, find?_committed (updates_id _ positions) hfound, ?_⟩
  induction positions using List.reverseRecOn with
  | nil =>
    refine Iff.trans (follows_unmoved h (reads h hview hviewEnd hfirst hlast) rfl rfl) ?_
    exact ⟨fun hreadable => ⟨fun _ => ⟨hreadable, fun hne => absurd rfl hne⟩,
      fun hne => absurd rfl hne⟩, fun hfollowed => (hfollowed.1 rfl).1⟩
  | append_singleton positions clientX =>
    have hmoved : (positions ++ [clientX] ≠ []) = True :=
      eq_true (List.append_ne_nil_of_right_ne_nil positions (List.cons_ne_nil clientX []))
    have hdelta : lastDelta pxPerDay startX (positions ++ [clientX])
        = dayDelta pxPerDay startX clientX := by
      unfold lastDelta
      rw [List.getLast?_append]
      rfl
    rw [updates_concat, hmoved, hdelta]
    exact follows_update h hview hviewEnd hfirst hlast clientX

/-! ## A block that begins before the visible range -/

def january : View where
  computedViewStart := "2026-01-01"
  computedViewEnd := "2026-01-31"

def drafting : TimeAllocation where
  id := 7
  projectKey := "YC"
  projectName := "Yuance"
  username := "lin"
  displayName := "Lin"
  startDate := "2025-12-30"
  endDate := "2026-01-05"
  dailyHours := 8
  phaseTaskName := ""
  note := ""

theorem drafting_lasts : Lasts drafting 20452 20458 where
  startDate := by decide +kernel
  endDate := by decide +kernel
  firstInRange := by decide
  lastInRange := by decide
  ordered := by decide

/-- The same block, drawn out by two days at its right edge. -/
theorem drafting_resized :
    (∃ written, (dragBlock january 24 [drafting] 7 .resizeR 100 [130, 148]).find?
        (fun item => item.id = 7) = some written
      ∧ (Follows .resizeR (lastDelta 24 100 [130, 148]) drafting written
        ↔ HandFollowed january .resizeR 20452 20458 (dayIndex "2025-12-30" "2026-01-01")
          (dayIndex "2026-01-05" "2026-01-01") ([130, 148] ≠ ([] : List Rat))
          (lastDelta 24 100 [130, 148])))
      ∧ HandFollowed january .resizeR 20452 20458 (dayIndex "2025-12-30" "2026-01-01")
          (dayIndex "2026-01-05" "2026-01-01") ([130, 148] ≠ ([] : List Rat))
          (lastDelta 24 100 [130, 148]) := by
  have hfound : [drafting].find? (fun item => item.id = 7) = some drafting := by decide
  have hiff := @dragBlock_follows_iff january 24 100 [drafting] 7 .resizeR [130, 148] drafting
    20452 20458 20454 20484 hfound drafting_lasts (by decide +kernel) (by decide +kernel)
    (by decide) (by decide)
  refine ⟨hiff.1, ?_, ?_⟩
  · intro hzero
    exact absurd hzero (by decide +kernel)
  · intro _
    exact ⟨by decide, by decide +kernel⟩

/-- The pointer returns to where it was, and the block has moved by two days; a block of one day
becomes one of two. -/
theorem resting_blocks_are_changed :
    ((dragBlock january 24 [drafting] 7 .move 100 [130, 100]).find? (fun item => item.id = 7)
        = some { drafting with startDate := "2026-01-01", endDate := "2026-01-07" }
      ∧ lastDelta 24 100 [130, 100] = 0
      ∧ ¬ Follows .move 0 drafting
        { drafting with startDate := "2026-01-01", endDate := "2026-01-07" })
      ∧ (dragBlock january 24 [{ drafting with startDate := "2026-01-05" }] 7 .resizeL 100
          [100]).find? (fun item => item.id = 7)
        = some { drafting with startDate := "2026-01-04" } := by
  refine ⟨⟨by decide +kernel, by decide +kernel, ?_⟩, by decide +kernel⟩
  intro hfollows
  exact absurd (hfollows.still rfl) (by decide)

end Schedule
end Yuance
