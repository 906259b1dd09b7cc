import Mathlib

/-!
# Yuance.Schedule.Items

The allocations of `frontend/packages/ui/src/time-allocation-gantt.jsx`. A number of hours is a
rational.

* `normalizeAllocation`: an allocation as the chart keeps it.
-/

namespace Yuance
namespace Schedule

structure TimeAllocation where
  id : Int
  projectKey : String
  projectName : String
  username : String
  displayName : String
  startDate : String
  endDate : String
  dailyHours : Rat
  phaseTaskName : String
  note : String
  deriving DecidableEq, Repr

/-- An allocation as the page receives it. -/
structure ReceivedAllocation where
  id : Int
  projectKey : String
  projectName : Option String
  username : String
  displayName : Option String
  startDate : String
  endDate : String
  /-- `Number(daily_hours)`, unless it is `NaN`. -/
  dailyHours : Option Rat
  phaseTaskName : Option String
  note : Option String
  deriving DecidableEq, Repr

/-- `DEFAULT_DAILY_HOURS`. -/
def defaultDailyHours : Rat := 8

/-- `text || fallback`. -/
def textOr (text : Option String) (fallback : String) : String :=
  match text with
  | some text => if text = "" then fallback else text
  | none => fallback

/-- `hours || fallback`. -/
def hoursOr (hours : Option Rat) (fallback : Rat) : Rat :=
  match hours with
  | some hours => if hours = 0 then fallback else hours
  | none => fallback

def normalizeAllocation (allocation : ReceivedAllocation) : TimeAllocation where
  id := allocation.id
  projectKey := allocation.projectKey
  projectName := textOr allocation.projectName allocation.projectKey
  username := allocation.username
  displayName := textOr allocation.displayName allocation.username
  startDate := allocation.startDate
  endDate := allocation.endDate
  dailyHours := hoursOr allocation.dailyHours defaultDailyHours
  phaseTaskName := textOr allocation.phaseTaskName ""
  note := textOr allocation.note ""

end Schedule
end Yuance
