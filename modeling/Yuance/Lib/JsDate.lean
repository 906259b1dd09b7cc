import Mathlib.Algebra.Order.Floor.Ring
import Mathlib.Data.Rat.Floor
import Yuance.Lib.Calendar

/-!
# Yuance.Lib.JsDate

`Date` of JavaScript as far as days go: `Date.UTC` of a year, month and day, the first ten
characters of `toISOString`, and `Math.round`. Moments are milliseconds since 1970.

* `dateText`: the text `YYYY-MM-DD` of a day, counted from 1970.
* `dateText_lt_iff`: the texts are ordered as the days are.
* `dateUtc_civilDay`: `Date.UTC` finds the day again, from the year 100 on.
* `isoDate_of_inRange`, `isoDate_signed`: a day as `toISOString` begins, with a sign outside of the
  years 0 to 9999.
-/

namespace Lib

/-- Milliseconds of a day. -/
def dayMs : Int := 86400000

/-- `Math.round`. -/
def mathRound (x : Rat) : Int := ⌊x + 1 / 2⌋

theorem mathRound_intCast (n : Int) : mathRound n = n := by
  unfold mathRound
  rw [Int.floor_intCast_add]
  have hhalf : ⌊(1 : Rat) / 2⌋ = 0 := by
    rw [Int.floor_eq_zero_iff, Set.mem_Ico]
    constructor <;> norm_num
  rw [hhalf, Int.add_zero]

/-! ## Texts of days -/

/-- The days whose year has four digits. -/
def InRange (day : Int) : Prop := FourDigitYear (day * 86400)

theorem inRange_iff {day : Int} : InRange day ↔ -719528 ≤ day ∧ day ≤ 2932896 := by
  unfold InRange FourDigitYear
  omega

instance (day : Int) : Decidable (InRange day) := inferInstanceAs (Decidable (FourDigitYear _))

/-- `YYYY-MM-DD`. -/
def dateText (day : Int) : String := String.ofList (dayText (day * 86400))

variable {day day' : Int}

theorem datetimeText_day (day : Int) :
    datetimeText (day * 86400) = dayText (day * 86400) ++ " 00:00:00".toList := by
  rw [datetimeText_eq]
  congr 1
  unfold minuteText secondText
  rw [Int.mul_emod_left]
  rfl

theorem dateText_lt_iff (h : InRange day) (h' : InRange day') :
    dateText day < dateText day' ↔ day < day' := by
  have hiff := datetimeText_lt_iff h h'
  have hlength : (dayText (day * 86400)).length = (dayText (day' * 86400)).length := by
    rw [dayText_length h, dayText_length h']
  rw [datetimeText_day, datetimeText_day, append_lt_append_iff hlength] at hiff
  unfold dateText
  rw [String.lt_iff_toList_lt, String.toList_ofList, String.toList_ofList]
  constructor
  · intro hlt
    have := hiff.mp (.inl hlt)
    omega
  · intro hlt
    rcases hiff.mpr (by omega) with hlt | ⟨_, hself⟩
    · exact hlt
    · exact absurd hself (List.lt_irrefl _)

theorem dateText_le_iff (h : InRange day) (h' : InRange day') :
    dateText day ≤ dateText day' ↔ day ≤ day' := by
  rw [← not_lt, dateText_lt_iff h' h, not_lt]

theorem dateText_inj (h : InRange day) (h' : InRange day') :
    dateText day = dateText day' ↔ day = day' := by
  constructor
  · intro heq
    have hle := (dateText_le_iff h h').mp heq.le
    have hge := (dateText_le_iff h' h).mp heq.ge
    omega
  · intro heq
    rw [heq]

/-! ## From a day to its text -/

/-- The year in `toISOString`: four digits, or six with a sign. -/
def isoYear (year : Int) : List Char :=
  if 0 ≤ year ∧ year < 10000 then padded 4 year.toNat
  else (if year < 0 then '-' else '+') :: padded 6 year.natAbs

/-- `new Date(ms).toISOString().slice(0, 10)`. -/
def isoDate (ms : Int) : String :=
  let civil := civilDay (ms / dayMs + epochDays)
  String.ofList ((isoYear civil.year ++ '-' :: (padded 2 (civil.month + 1)
    ++ '-' :: padded 2 (civil.day + 1))).take 10)

theorem isoDate_of_inRange (h : InRange day) : isoDate (day * dayMs) = dateText day := by
  have hyear := fourDigitYear_iff.mp h
  have hms : day * dayMs / dayMs = day := Int.mul_ediv_cancel day (by decide)
  have hsecond : day * 86400 / 86400 = day := Int.mul_ediv_cancel day (by decide)
  rw [hsecond] at hyear
  have hlength := dayText_length h
  unfold isoDate dateText
  unfold dayText at hlength ⊢
  dsimp only at hlength ⊢
  rw [hsecond, yearText_of_fourDigit hyear] at hlength ⊢
  rw [hms, isoYear, if_pos hyear, List.take_of_length_le (by rw [hlength])]

/-- Other years have a sign. -/
theorem isoDate_signed (h : ¬ InRange day) :
    ∃ sign rest, (isoDate (day * dayMs)).toList = sign :: rest ∧ sign.isDigit = false := by
  unfold InRange at h
  rw [fourDigitYear_iff, Int.mul_ediv_cancel day (by decide)] at h
  unfold isoDate
  dsimp only
  rw [Int.mul_ediv_cancel day (by decide), isoYear, if_neg h, String.toList_ofList]
  refine ⟨_, _, rfl, ?_⟩
  split
  · rfl
  · rfl

/-- Only a day of the four-digit years has the text of one. -/
theorem isoDate_eq_dateText (h : InRange day') :
    isoDate (day * dayMs) = dateText day' ↔ day = day' := by
  by_cases hday : InRange day
  · rw [isoDate_of_inRange hday, dateText_inj hday h]
  · refine iff_of_false ?_ fun heq => hday (by rw [heq]; exact h)
    intro heq
    obtain ⟨sign, rest, hsign, hdigit⟩ := isoDate_signed hday
    have hlist : (dateText day').toList = sign :: rest := by rw [← heq, hsign]
    have hyear := fourDigitYear_iff.mp h
    unfold dateText dayText at hlist
    dsimp only at hlist
    rw [String.toList_ofList, yearText_of_fourDigit hyear] at hlist
    have hall := padded_isDigit 4 (civilDay (day' * 86400 / 86400 + epochDays)).year.toNat
    have hlength := padded_length 4 (civilDay (day' * 86400 / 86400 + epochDays)).year.toNat
    cases hpadded : padded 4 (civilDay (day' * 86400 / 86400 + epochDays)).year.toNat with
    | nil =>
      rw [hpadded] at hlength
      cases hlength
    | cons c cs =>
      rw [hpadded] at hlist hall
      obtain ⟨rfl, _⟩ := List.cons.inj hlist
      rw [List.all_cons, hdigit] at hall
      cases hall

/-! ## From a text to its day -/

/-- `Date.UTC(year, month, day)`, the months counted from 0; a year below 100 is one of the
twentieth century. -/
def dateUtc (year month day : Int) : Int :=
  let year := if 0 ≤ year ∧ year ≤ 99 then 1900 + year else year
  (daysOf { year := year + month / 12, month := (month % 12).toNat, day := 0 } - epochDays
    + (day - 1)) * dayMs

theorem dateUtc_civilDay (civil : CivilDay) (hyear : 100 ≤ civil.year) (hmonth : civil.month < 12) :
    dateUtc civil.year civil.month (civil.day + 1) = (daysOf civil - epochDays) * dayMs := by
  unfold dateUtc
  dsimp only
  rw [if_neg (by omega)]
  have hover : (civil.month : Int) / 12 = 0 := by omega
  have hrem : ((civil.month : Int) % 12).toNat = civil.month := by omega
  rw [hover, hrem, Int.add_zero]
  congr 1
  unfold daysOf
  dsimp only
  omega

/-- Days of the years 1900 to 1999. -/
theorem daysOf_twentieth {year month : Int} (hyear : 1900 ≤ year ∧ year ≤ 1999)
    (hmonth : 0 ≤ month ∧ month < 12) :
    693960 ≤ daysOf { year := year, month := month.toNat, day := 0 }
      ∧ daysOf { year := year, month := month.toNat, day := 0 } ≤ 730485 := by
  have hmonths : ∀ leap : Bool, ∀ month : Fin 12, monthStart leap month ≤ 335 := by decide
  have hstart := hmonths (isLeap (year % 400).toNat) ⟨month.toNat, by omega⟩
  have hquot : year / 400 = 4 := by omega
  have hrem : (year % 400).toNat = year.toNat - 1600 := by omega
  unfold daysOf cycle
  dsimp only at hstart ⊢
  rw [hrem] at hstart ⊢
  rw [hquot]
  generalize monthStart (isLeap (year.toNat - 1600)) month.toNat = inYear at hstart ⊢
  unfold yearStart
  omega

/-- A year of two digits is read as one of the twentieth century. -/
theorem dateUtc_twentieth {year month day : Int}
    (hyear : (0 ≤ year ∧ year ≤ 99) ∨ (1900 ≤ year ∧ year ≤ 1999))
    (hmonth : 0 ≤ month ∧ month < 12) (hday : 1 ≤ day ∧ day ≤ 31) :
    -25568 ≤ dateUtc year month day / dayMs ∧ dateUtc year month day / dayMs ≤ 10987 := by
  have hover : month / 12 = 0 := by omega
  have hrem : month % 12 = month := by omega
  unfold dateUtc
  dsimp only
  rw [Int.mul_ediv_cancel _ (by decide), hover, hrem, Int.add_zero]
  unfold epochDays
  split
  · have := @daysOf_twentieth (1900 + year) month (by omega) hmonth
    omega
  · have := @daysOf_twentieth year month (by omega) hmonth
    omega

end Lib
