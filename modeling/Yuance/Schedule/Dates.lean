import Yuance.Lib.JsDate

/-!
# Yuance.Schedule.Dates

The dates of `time-allocation-gantt.jsx`: `parseDate`, `dayIndex`, `dateFromDay` and `dateFromMs`. A
part of a date is a text of digits.

* `readDay`: the day that `parseDate` takes a text for.
* `readDay_dateText`: from the year 100 on it is the day written.
* `dateFromDay_dayIndex`, `dayIndex_dateFromDay`: each function undoes the other.
-/

namespace Yuance
namespace Schedule

open Lib

/-- `n || fallback` of a number. -/
def numberOr (n : Nat) (fallback : Int) : Int := if n = 0 then fallback else n

/-- A part of `split('-').map(Number)`; what is not there counts as 0, as both are falsy. -/
def datePart (value : String) (i : Nat) : Nat :=
  ((splitAll '-' value.toList).map digitsValue).getD i 0

def parseDate (value : String) : Int :=
  dateUtc (numberOr (datePart value 0) 1970) (numberOr (datePart value 1) 1 - 1)
    (numberOr (datePart value 2) 1)

def dayIndex (value viewStart : String) : Int :=
  mathRound (((parseDate value - parseDate viewStart : Int) : Rat) / (dayMs : Int))

def dateFromMs (ms : Int) : String := isoDate ms

def dateFromDay (index : Int) (viewStart : String) : String :=
  dateFromMs (parseDate viewStart + index * dayMs)

/-! ## Days read -/

/-- The day that `parseDate` takes the text for. -/
def readDay (value : String) : Int := parseDate value / dayMs

variable {value viewStart : String} {day : Int}

theorem parseDate_eq (value : String) : parseDate value = readDay value * dayMs := by
  have hdvd : dayMs ∣ parseDate value := Dvd.intro_left _ rfl
  exact (Int.ediv_mul_cancel hdvd).symm

theorem dayIndex_eq (value viewStart : String) :
    dayIndex value viewStart = readDay value - readDay viewStart := by
  have hne : ((dayMs : Int) : Rat) ≠ 0 := by
    unfold dayMs
    norm_num
  unfold dayIndex
  rw [parseDate_eq value, parseDate_eq viewStart, ← Int.sub_mul, Int.cast_mul,
    mul_div_assoc, div_self hne, mul_one, mathRound_intCast]

theorem dateFromDay_eq (index : Int) (viewStart : String) :
    dateFromDay index viewStart = isoDate ((readDay viewStart + index) * dayMs) := by
  unfold dateFromDay dateFromMs
  rw [parseDate_eq, Int.add_mul]

theorem dateFromDay_of_inRange {index : Int} (h : InRange (readDay viewStart + index)) :
    dateFromDay index viewStart = dateText (readDay viewStart + index) := by
  rw [dateFromDay_eq, isoDate_of_inRange h]

/-! ## Dates read -/

theorem splitAll_piece {piece : List Char} (h : ∀ c ∈ piece, c ≠ '-') (rest : List Char) :
    splitAll '-' (piece ++ '-' :: rest) = piece :: splitAll '-' rest := by
  induction piece with
  | nil => exact if_pos rfl
  | cons c piece ih =>
    rw [List.cons_append, splitAll, if_neg (h c List.mem_cons_self),
      ih fun d hd => h d (List.mem_cons_of_mem c hd)]

theorem splitAll_last {piece : List Char} (h : ∀ c ∈ piece, c ≠ '-') :
    splitAll '-' piece = [piece] := by
  induction piece with
  | nil => rfl
  | cons c piece ih =>
    rw [splitAll, if_neg (h c List.mem_cons_self), ih fun d hd => h d (List.mem_cons_of_mem c hd)]

theorem padded_ne_hyphen (width n : Nat) : ∀ c ∈ padded width n, c ≠ '-' := by
  intro c hc heq
  have hdigit := List.all_eq_true.mp (padded_isDigit width n) c hc
  rw [heq] at hdigit
  exact absurd hdigit (by decide)

/-- The day of the calendar that a date names. -/
def civilOf (day : Int) : CivilDay := civilDay (day + epochDays)

theorem civilOf_year (h : InRange day) : 0 ≤ (civilOf day).year ∧ (civilOf day).year < 10000 := by
  have hyear := fourDigitYear_iff.mp h
  rw [Int.mul_ediv_cancel day (by decide)] at hyear
  exact hyear

theorem dateText_toList (h : InRange day) : (dateText day).toList
    = padded 4 (civilOf day).year.toNat ++ '-' :: (padded 2 ((civilOf day).month + 1)
      ++ '-' :: padded 2 ((civilOf day).day + 1)) := by
  have hyear := civilOf_year h
  unfold dateText dayText
  dsimp only
  rw [String.toList_ofList, Int.mul_ediv_cancel day (by decide)]
  unfold civilOf at hyear ⊢
  rw [yearText_of_fourDigit hyear]

theorem dateParts (h : InRange day) : (splitAll '-' (dateText day).toList).map digitsValue
    = [(civilOf day).year.toNat, (civilOf day).month + 1, (civilOf day).day + 1] := by
  have hyear := civilOf_year h
  have hmonth : (civilOf day).month < 12 := civilDay_month_lt _
  have hday : (civilOf day).day < 31 := civilDay_day_lt _
  rw [dateText_toList h, splitAll_piece (padded_ne_hyphen 4 _),
    splitAll_piece (padded_ne_hyphen 2 _), splitAll_last (padded_ne_hyphen 2 _),
    List.map_cons, List.map_cons, List.map_cons, List.map_nil, digitsValue_padded (by omega),
    digitsValue_padded (by omega), digitsValue_padded (by omega)]

theorem parseDate_dateText (h : InRange day) : parseDate (dateText day)
    = dateUtc (numberOr (civilOf day).year.toNat 1970) (civilOf day).month
        ((civilOf day).day + 1) := by
  unfold parseDate datePart
  rw [dateParts h]
  unfold numberOr
  rw [List.getD_cons_succ, List.getD_cons_succ, List.getD_cons_succ, List.getD_cons_zero,
    List.getD_cons_zero, List.getD_cons_zero, if_neg (Nat.succ_ne_zero _),
    if_neg (Nat.succ_ne_zero _)]
  congr 1
  omega

/-- The days from the first of January 100 on. -/
theorem hundred_le_year_iff (h : InRange day) : 100 ≤ (civilOf day).year ↔ -683003 ≤ day := by
  obtain ⟨hquot, hrem⟩ := civilDay_year (day + epochDays)
  have hlt := yearOf_inCycle_lt (day + epochDays)
  have hyear := civilOf_year h
  have hfirst : yearOf 36525 = 100 := by decide +kernel
  have hbefore : yearOf 36524 = 99 := by decide +kernel
  rw [inRange_iff] at h
  unfold civilOf at hyear ⊢
  unfold cycle epochDays at *
  constructor
  · intro hlong
    by_contra hearly
    have hmono := @yearOf_mono ((day + 719528) % 146097).toNat 36524 (by omega)
    omega
  · intro hlate
    by_contra hshort
    have hmono := @yearOf_mono 36525 ((day + 719528) % 146097).toNat (by omega)
    omega

/-- A date from the year 100 on is read as it is written. -/
theorem readDay_dateText (h : InRange day) (hyear : -683003 ≤ day) :
    readDay (dateText day) = day := by
  have hlong := (hundred_le_year_iff h).mpr hyear
  have hnumber : numberOr (civilOf day).year.toNat 1970 = (civilOf day).year := by
    unfold numberOr
    rw [if_neg (by omega), Int.toNat_of_nonneg (by omega)]
  have hdays : daysOf (civilOf day) = day + epochDays := daysOf_civilDay _
  unfold readDay
  rw [parseDate_dateText h, hnumber, dateUtc_civilDay _ hlong (civilDay_month_lt _), hdays,
    Int.add_sub_cancel, Int.mul_ediv_cancel day (by decide)]

/-- A date before the year 100 is read as one of the twentieth century. -/
theorem readDay_short (h : InRange day) (hyear : day < -683003) :
    -25568 ≤ readDay (dateText day) ∧ readDay (dateText day) ≤ 10987 := by
  have hshort : ¬ 100 ≤ (civilOf day).year := by
    rw [hundred_le_year_iff h]
    omega
  have hrange := civilOf_year h
  have hmonth : (civilOf day).month < 12 := civilDay_month_lt _
  have hday : (civilOf day).day < 31 := civilDay_day_lt _
  unfold readDay
  rw [parseDate_dateText h]
  refine dateUtc_twentieth ?_ (by omega) (by omega)
  unfold numberOr
  split
  · exact .inr (by decide)
  · exact .inl (by omega)

theorem dateFromDay_dayIndex (h : InRange day) (hyear : -683003 ≤ day) (viewStart : String) :
    dateFromDay (dayIndex (dateText day) viewStart) viewStart = dateText day := by
  have hsum : readDay viewStart + dayIndex (dateText day) viewStart = day := by
    rw [dayIndex_eq, readDay_dateText h hyear]
    omega
  rw [dateFromDay_of_inRange (by rw [hsum]; exact h), hsum]

theorem dayIndex_dateFromDay {index : Int} (h : InRange (readDay viewStart + index))
    (hyear : -683003 ≤ readDay viewStart + index) :
    dayIndex (dateFromDay index viewStart) viewStart = index := by
  rw [dateFromDay_of_inRange h, dayIndex_eq, readDay_dateText h hyear]
  omega

end Schedule
end Yuance
