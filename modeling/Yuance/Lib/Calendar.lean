import Mathlib.Data.Nat.Find
import Yuance.Lib.Scan

/-!
# Yuance.Lib.Calendar

The Gregorian calendar and the text of a moment: `2026-08-01T09:30:00Z`, whole seconds in UTC.

* `rfc3339`: the text of a second, counted from 1970; a year of other than four digits has a sign.
* `momentText_lt_iff`: among years of four digits the texts are ordered as the seconds are.
* `datetimeText`: the same moment as the database writes it, `2026-08-01 09:30:00`.
* `parseRfc3339_rfc3339`: the text is read back, unless the year has a sign.
-/

namespace Lib

/-! ## Numbers of a fixed width -/

/-- `n` in `width` decimal digits. -/
def padded : Nat → Nat → List Char
  | 0, _ => []
  | width + 1, n => padded width (n / 10) ++ [Nat.digitChar (n % 10)]

theorem digitChar_lt {n m : Nat} (h : n < m) (hm : m < 10) : Nat.digitChar n < Nat.digitChar m := by
  have hall : ∀ m : Fin 10, ∀ n : Fin 10, n < m → Nat.digitChar n < Nat.digitChar m := by decide
  exact hall ⟨m, hm⟩ ⟨n, by omega⟩ h

theorem digitChar_isDigit {n : Nat} (hn : n < 10) :
    (Nat.digitChar n).isDigit = true ∧ (Nat.digitChar n).toNat - 48 = n := by
  have hall : ∀ n : Fin 10, (Nat.digitChar n).isDigit = true ∧ (Nat.digitChar n).toNat - 48 = n := by
    decide
  exact hall ⟨n, hn⟩

theorem padded_length (width n : Nat) : (padded width n).length = width := by
  induction width generalizing n with
  | zero => rfl
  | succ width ih => rw [padded, List.length_append, ih, List.length_singleton]

theorem padded_isDigit (width n : Nat) : (padded width n).all Char.isDigit = true := by
  induction width generalizing n with
  | zero => rfl
  | succ width ih =>
    rw [padded, List.all_append, ih, List.all_cons, List.all_nil, Bool.and_true, Bool.true_and]
    exact (digitChar_isDigit (Nat.mod_lt n (by decide))).1

theorem digitsValue_padded {width n : Nat} (hn : n < 10 ^ width) :
    digitsValue (padded width n) = n := by
  induction width generalizing n with
  | zero =>
    rw [Nat.pow_zero] at hn
    obtain rfl : n = 0 := by omega
    rfl
  | succ width ih =>
    have hlast := (digitChar_isDigit (Nat.mod_lt n (show 10 > 0 by decide))).2
    have hinit := ih (n := n / 10) (by rw [Nat.pow_succ] at hn; omega)
    unfold digitsValue at hinit ⊢
    rw [padded, List.foldl_append, hinit, List.foldl_cons, List.foldl_nil, hlast]
    omega

/-! ## The order of texts -/

section Order

variable {a b x y : List Char}

theorem append_lt_append (hlength : a.length = b.length) (h : a < b) : a ++ x < b ++ y := by
  induction a generalizing b with
  | nil =>
    obtain rfl : b = [] := List.length_eq_zero_iff.mp hlength.symm
    exact absurd h (List.lt_irrefl [])
  | cons c a ih =>
    cases b with
    | nil => cases hlength
    | cons d b =>
      rw [List.cons_append, List.cons_append, List.cons_lt_cons_iff]
      rcases List.cons_lt_cons_iff.mp h with hlt | ⟨heq, hlt⟩
      · exact .inl hlt
      · exact .inr ⟨heq, ih (Nat.succ.inj hlength) hlt⟩

theorem append_lt_append_iff (hlength : a.length = b.length) :
    a ++ x < b ++ y ↔ a < b ∨ (a = b ∧ x < y) := by
  induction a generalizing b with
  | nil =>
    obtain rfl : b = [] := List.length_eq_zero_iff.mp hlength.symm
    simp
  | cons c a ih =>
    cases b with
    | nil => cases hlength
    | cons d b =>
      rw [List.cons_append, List.cons_append, List.cons_lt_cons_iff, List.cons_lt_cons_iff,
        ih (Nat.succ.inj hlength), List.cons.injEq]
      tauto

theorem padded_lt {width n m : Nat} (h : n < m) (hm : m < 10 ^ width) :
    padded width n < padded width m := by
  induction width generalizing n m with
  | zero =>
    rw [Nat.pow_zero] at hm
    omega
  | succ width ih =>
    rw [Nat.pow_succ] at hm
    rw [padded, padded]
    by_cases hinit : n / 10 = m / 10
    · rw [hinit]
      refine List.append_left_lt ?_
      rw [List.cons_lt_cons_iff]
      exact .inl (digitChar_lt (by omega) (Nat.mod_lt m (by decide)))
    · refine append_lt_append ?_ (ih (by omega) (by omega))
      rw [padded_length, padded_length]

/-- The first number decides, unless it is the same. -/
theorem padded_append_lt {width n m : Nat} (hle : n ≤ m) (hm : m < 10 ^ width)
    (h : n = m → x < y) : padded width n ++ x < padded width m ++ y := by
  rcases Nat.lt_or_eq_of_le hle with hlt | rfl
  · exact append_lt_append (by rw [padded_length, padded_length]) (padded_lt hlt hm)
  · exact List.append_left_lt (h rfl)

theorem cons_lt_cons {c : Char} (h : x < y) : c :: x < c :: y :=
  List.cons_lt_cons_iff.mpr (.inr ⟨rfl, h⟩)

end Order

/-! ## Years and months -/

/-- Days of the years before `year`, counted from a year that is divisible by 400. -/
def yearStart (year : Nat) : Nat :=
  365 * year + (year + 3) / 4 - (year + 99) / 100 + (year + 399) / 400

def isLeap (year : Nat) : Bool := year % 4 = 0 && (year % 100 ≠ 0 || year % 400 = 0)

/-- Days of 400 years. -/
def cycle : Int := 146097

/-- The year in which a day of the cycle lies. -/
def yearOf (day : Nat) : Nat := Nat.findGreatest (fun year => yearStart year ≤ day) (day / 365)

/-- Days of the year before its month `month`, the months counted from 0. -/
def monthStart (leap : Bool) (month : Nat) : Nat :=
  [0, 31, 59, 90, 120, 151, 181, 212, 243, 273, 304, 334, 365].getD month 366
    + if leap && 2 ≤ month then 1 else 0

/-- The month in which a day of the year lies. -/
def monthOf (leap : Bool) (day : Nat) : Nat :=
  Nat.findGreatest (fun month => monthStart leap month ≤ day) 11

theorem succ_div_ceil {n d : Nat} (hd : 0 < d) :
    (n + 1 + (d - 1)) / d = (n + (d - 1)) / d + if n % d = 0 then 1 else 0 := by
  have hsum : n + 1 + (d - 1) = n + d := by omega
  rw [hsum, Nat.add_div_right n hd]
  split
  · rename_i hdvd
    obtain ⟨k, rfl⟩ := Nat.dvd_of_mod_eq_zero hdvd
    rw [Nat.mul_div_cancel_left k hd, Nat.mul_add_div hd, Nat.div_eq_of_lt (by omega)]
  · rename_i hrem
    have hpos : 0 < n % d := Nat.pos_of_ne_zero hrem
    have hlt := Nat.mod_lt n hd
    have hsplit : n + (d - 1) = d * (n / d + 1) + (n % d - 1) := by
      have := Nat.div_add_mod n d
      rw [Nat.mul_add]
      omega
    rw [hsplit, Nat.mul_add_div hd, Nat.div_eq_of_lt (a := n % d - 1) (by omega)]

theorem yearStart_succ (year : Nat) :
    yearStart (year + 1) = yearStart year + if isLeap year then 366 else 365 := by
  have hfour := @succ_div_ceil year 4 (by decide)
  have hhundred := @succ_div_ceil year 100 (by decide)
  have hcycle := @succ_div_ceil year 400 (by decide)
  have hle : (year + 99) / 100 ≤ (year + 3) / 4 := by omega
  have hdvd : year % 400 = 0 → year % 100 = 0 := by omega
  have hdvd' : year % 100 = 0 → year % 4 = 0 := by omega
  simp only [Nat.add_one_sub_one] at hfour hhundred hcycle
  have hleap : isLeap year = decide (year % 4 = 0 ∧ (year % 100 = 0 → year % 400 = 0)) := by
    unfold isLeap
    by_cases h100 : year % 100 = 0
    · simp [h100]
    · simp [h100]
  unfold yearStart
  rw [hfour, hhundred, hcycle, hleap]
  generalize (year + 99) / 100 = hundreds at hle ⊢
  generalize (year + 3) / 4 = fours at hle ⊢
  generalize (year + 399) / 400 = cycles
  by_cases h400 : year % 400 = 0
  · have h100 := hdvd h400
    rw [if_pos (hdvd' h100), if_pos h100, if_pos h400, decide_eq_true ⟨hdvd' h100, fun _ => h400⟩,
      if_pos rfl]
    omega
  · rw [if_neg h400]
    by_cases h100 : year % 100 = 0
    · rw [if_pos (hdvd' h100), if_pos h100, decide_eq_false fun h => h400 (h.2 h100),
        if_neg Bool.false_ne_true]
      omega
    · rw [if_neg h100]
      by_cases h4 : year % 4 = 0
      · rw [if_pos h4, decide_eq_true ⟨h4, fun h => absurd h h100⟩, if_pos rfl]
        omega
      · rw [if_neg h4, decide_eq_false fun h => h4 h.1,
          if_neg Bool.false_ne_true]
        omega

theorem yearOf_le (day : Nat) : yearStart (yearOf day) ≤ day :=
  Nat.findGreatest_spec (P := fun year => yearStart year ≤ day) (Nat.zero_le _) (Nat.zero_le day)

theorem lt_yearOf_succ (day : Nat) : day < yearStart (yearOf day + 1) := by
  by_contra hle
  have hle := Nat.le_of_not_lt hle
  have hbound : yearOf day + 1 ≤ day / 365 := by
    unfold yearStart at hle
    omega
  exact absurd (Nat.le_findGreatest (P := fun year => yearStart year ≤ day) hbound hle)
    (Nat.not_succ_le_self _)

theorem yearOf_mono {day day' : Nat} (h : day ≤ day') : yearOf day ≤ yearOf day' :=
  Nat.findGreatest_mono (fun _ hyear => Nat.le_trans hyear h) (Nat.div_le_div_right h)

theorem yearOf_lt {day : Nat} (h : day < 146097) : yearOf day < 400 := by
  by_contra hle
  have hstart := yearOf_le day
  unfold yearStart at hstart
  omega

theorem monthOf_lt (leap : Bool) (day : Nat) : monthOf leap day < 12 :=
  Nat.lt_succ_of_le (Nat.findGreatest_le _)

theorem monthOf_le (leap : Bool) (day : Nat) : monthStart leap (monthOf leap day) ≤ day :=
  Nat.findGreatest_spec (P := fun month => monthStart leap month ≤ day) (Nat.zero_le 11) (by
    cases leap
    · exact Nat.zero_le day
    · exact Nat.zero_le day)

theorem monthOf_mono {leap : Bool} {day day' : Nat} (h : day ≤ day') :
    monthOf leap day ≤ monthOf leap day' :=
  Nat.findGreatest_mono (fun _ hmonth => Nat.le_trans hmonth h) (Nat.le_refl 11)

theorem lt_monthOf_succ {leap : Bool} {day : Nat} (h : day < if leap then 366 else 365) :
    day < monthStart leap (monthOf leap day + 1) := by
  by_cases hlast : monthOf leap day = 11
  · rw [hlast]
    cases leap
    · exact h
    · exact h
  · by_contra hle
    have hbound : monthOf leap day + 1 ≤ 11 := by
      have := monthOf_lt leap day
      omega
    exact absurd (Nat.le_findGreatest (P := fun month => monthStart leap month ≤ day) hbound
      (Nat.le_of_not_lt hle)) (Nat.not_succ_le_self _)

/-! ## Days -/

/-- A day of the calendar, months and days of the month counted from 0. -/
structure CivilDay where
  year : Int
  month : Nat
  day : Nat
  deriving DecidableEq

/-- The calendar day `days` after the first of January of the year 0. -/
def civilDay (days : Int) : CivilDay :=
  let inCycle := (days % cycle).toNat
  let year := yearOf inCycle
  let inYear := inCycle - yearStart year
  let month := monthOf (isLeap year) inYear
  { year := 400 * (days / cycle) + year
    month := month
    day := inYear - monthStart (isLeap year) month }

/-- Days from the first of January of the year 0 to a calendar day. -/
def daysOf (civil : CivilDay) : Int :=
  let year := (civil.year % 400).toNat
  cycle * (civil.year / 400) + yearStart year + monthStart (isLeap year) civil.month + civil.day

variable {days days' : Int}

theorem yearOf_inCycle_lt (days : Int) : yearOf (days % cycle).toNat < 400 :=
  yearOf_lt (by unfold cycle; omega)

theorem civilDay_year (days : Int) :
    (civilDay days).year / 400 = days / cycle
      ∧ ((civilDay days).year % 400).toNat = yearOf (days % cycle).toNat := by
  have hlt := yearOf_inCycle_lt days
  unfold civilDay
  unfold cycle at hlt ⊢
  dsimp only
  constructor
  · omega
  · omega

/-- The day is found again. -/
theorem daysOf_civilDay (days : Int) : daysOf (civilDay days) = days := by
  obtain ⟨hquot, hrem⟩ := civilDay_year days
  have hyear := yearOf_le (days % cycle).toNat
  have hmonth := monthOf_le (isLeap (yearOf (days % cycle).toNat))
    ((days % cycle).toNat - yearStart (yearOf (days % cycle).toNat))
  unfold daysOf
  dsimp only
  rw [hquot, hrem]
  unfold civilDay
  unfold cycle at hyear hmonth ⊢
  dsimp only
  omega

/-- The day of the year lies in the year. -/
theorem inYear_lt (n : Nat) :
    n - yearStart (yearOf n) < if isLeap (yearOf n) then 366 else 365 := by
  have hlt := lt_yearOf_succ n
  have hle := yearOf_le n
  rw [yearStart_succ] at hlt
  omega

theorem civilDay_month_lt (days : Int) : (civilDay days).month < 12 := monthOf_lt _ _

theorem monthStart_succ_le {leap : Bool} {month : Nat} (h : month < 12) :
    monthStart leap (month + 1) ≤ monthStart leap month + 31 := by
  have hall : ∀ month : Fin 12, ∀ leap : Bool,
      monthStart leap (month + 1) ≤ monthStart leap month + 31 := by decide
  exact hall ⟨month, h⟩ leap

theorem civilDay_day_lt (days : Int) : (civilDay days).day < 31 := by
  have hlt := lt_monthOf_succ (inYear_lt (days % cycle).toNat)
  have hlong := @monthStart_succ_le (isLeap (yearOf (days % cycle).toNat)) _
    (civilDay_month_lt days)
  unfold civilDay at hlong ⊢
  dsimp only at hlong ⊢
  omega

/-- A later day has a later year, month or day. -/
theorem civilDay_year_mono (h : days ≤ days') : (civilDay days).year ≤ (civilDay days').year := by
  have hlt := yearOf_inCycle_lt days
  unfold civilDay
  unfold cycle at hlt ⊢
  dsimp only
  by_cases hquot : days / 146097 = days' / 146097
  · have hmono := @yearOf_mono (days % 146097).toNat (days' % 146097).toNat (by omega)
    omega
  · omega

theorem inCycle_le (h : days ≤ days') (hyear : (civilDay days).year = (civilDay days').year) :
    (days % cycle).toNat ≤ (days' % cycle).toNat
      ∧ yearOf (days % cycle).toNat = yearOf (days' % cycle).toNat := by
  obtain ⟨hquot, hrem⟩ := civilDay_year days
  obtain ⟨hquot', hrem'⟩ := civilDay_year days'
  rw [hyear] at hquot hrem
  refine ⟨?_, hrem.symm.trans hrem'⟩
  unfold cycle at hquot hquot' ⊢
  omega

theorem civilDay_month_mono (h : days ≤ days')
    (hyear : (civilDay days).year = (civilDay days').year) :
    (civilDay days).month ≤ (civilDay days').month := by
  obtain ⟨hle, heq⟩ := inCycle_le h hyear
  unfold civilDay
  dsimp only
  rw [heq]
  exact monthOf_mono (Nat.sub_le_sub_right hle _)

theorem civilDay_day_mono (h : days ≤ days')
    (hyear : (civilDay days).year = (civilDay days').year)
    (hmonth : (civilDay days).month = (civilDay days').month) :
    (civilDay days).day ≤ (civilDay days').day := by
  have hsum := daysOf_civilDay days
  have hsum' := daysOf_civilDay days'
  unfold daysOf at hsum hsum'
  dsimp only at hsum hsum'
  rw [hyear, hmonth] at hsum
  omega

/-! ## The text of a second -/

/-- Days from the first of January of the year 0 to the first of January 1970. -/
def epochDays : Int := 719528

/-- The decimal digits of a year, four at least. -/
def yearDigits (year : Nat) : List Char :=
  if year < 10000 then padded 4 year else Nat.toDigits 10 year

def yearText (year : Int) : List Char :=
  if 0 ≤ year ∧ year < 10000 then padded 4 year.toNat
  else (if year < 0 then '-' else '+') :: yearDigits year.natAbs

/-- The text of a second since 1970, in UTC. -/
def rfc3339 (second : Int) : List Char :=
  let civil := civilDay (second / 86400 + epochDays)
  let clock := (second % 86400).toNat
  yearText civil.year ++ '-' :: (padded 2 (civil.month + 1) ++ '-' :: (padded 2 (civil.day + 1)
    ++ 'T' :: (padded 2 (clock / 3600) ++ ':' :: (padded 2 (clock / 60 % 60)
      ++ ':' :: (padded 2 (clock % 60) ++ ['Z'])))))

/-- The seconds whose year has four digits. -/
def FourDigitYear (second : Int) : Prop := -62167219200 ≤ second ∧ second < 253402300800

instance (second : Int) : Decidable (FourDigitYear second) := instDecidableAnd

theorem fourDigitYear_iff {second : Int} : FourDigitYear second ↔
    0 ≤ (civilDay (second / 86400 + epochDays)).year
      ∧ (civilDay (second / 86400 + epochDays)).year < 10000 := by
  obtain ⟨hquot, _⟩ := civilDay_year (second / 86400 + epochDays)
  unfold FourDigitYear
  unfold cycle at hquot
  unfold epochDays at hquot ⊢
  omega

theorem yearText_of_fourDigit {year : Int} (h : 0 ≤ year ∧ year < 10000) :
    yearText year = padded 4 year.toNat := if_pos h

/-- The text of a second with `separator` before the clock and `tail` behind it. -/
def momentText (separator : Char) (tail : List Char) (second : Int) : List Char :=
  let civil := civilDay (second / 86400 + epochDays)
  let clock := (second % 86400).toNat
  yearText civil.year ++ '-' :: (padded 2 (civil.month + 1) ++ '-' :: (padded 2 (civil.day + 1)
    ++ separator :: (padded 2 (clock / 3600) ++ ':' :: (padded 2 (clock / 60 % 60)
      ++ ':' :: (padded 2 (clock % 60) ++ tail)))))

theorem rfc3339_eq (second : Int) : rfc3339 second = momentText 'T' ['Z'] second := rfl

/-- The order of the texts is the order of the seconds. -/
theorem momentText_lt {separator : Char} {tail : List Char} {second second' : Int}
    (hyear : FourDigitYear second) (hyear' : FourDigitYear second') (h : second < second') :
    momentText separator tail second < momentText separator tail second' := by
  have hyear := fourDigitYear_iff.mp hyear
  have hyear' := fourDigitYear_iff.mp hyear'
  have hdays : second / 86400 + epochDays ≤ second' / 86400 + epochDays := by omega
  unfold momentText
  dsimp only
  rw [yearText_of_fourDigit hyear, yearText_of_fourDigit hyear']
  have hmono := civilDay_year_mono hdays
  refine padded_append_lt (by omega) (by omega) fun hsame => cons_lt_cons ?_
  have hsame : (civilDay (second / 86400 + epochDays)).year
      = (civilDay (second' / 86400 + epochDays)).year := by omega
  have hmonth := civilDay_month_mono hdays hsame
  have hmonth_lt := civilDay_month_lt (second' / 86400 + epochDays)
  refine padded_append_lt (by omega) (by omega) fun hmonths => cons_lt_cons ?_
  have hday := civilDay_day_mono hdays hsame (by omega)
  have hday_lt := civilDay_day_lt (second' / 86400 + epochDays)
  refine padded_append_lt (by omega) (by omega) fun hdays' => cons_lt_cons ?_
  -- the same day: the clock decides
  have hclock : (second % 86400).toNat < (second' % 86400).toNat := by
    have hsum := daysOf_civilDay (second / 86400 + epochDays)
    have hsum' := daysOf_civilDay (second' / 86400 + epochDays)
    have hcivil : civilDay (second / 86400 + epochDays) = civilDay (second' / 86400 + epochDays) := by
      rw [CivilDay.mk.injEq]
      exact ⟨hsame, by omega, by omega⟩
    rw [hcivil, hsum'] at hsum
    omega
  refine padded_append_lt (by omega) (by omega) fun _ => cons_lt_cons ?_
  refine padded_append_lt (by omega) (by omega) fun _ => cons_lt_cons ?_
  exact padded_append_lt (by omega) (by omega) fun _ => by omega

theorem momentText_lt_iff {separator : Char} {tail : List Char} {second second' : Int}
    (hyear : FourDigitYear second) (hyear' : FourDigitYear second') :
    momentText separator tail second < momentText separator tail second' ↔ second < second' := by
  constructor
  · intro hlt
    by_contra hle
    rcases Int.lt_or_eq_of_le (Int.not_lt.mp hle) with hless | rfl
    · exact List.lt_irrefl _ (List.lt_trans hlt (momentText_lt hyear' hyear hless))
    · exact List.lt_irrefl _ hlt
  · exact momentText_lt hyear hyear'

theorem rfc3339_lt_iff {second second' : Int} (hyear : FourDigitYear second)
    (hyear' : FourDigitYear second') : rfc3339 second < rfc3339 second' ↔ second < second' := by
  rw [rfc3339_eq, rfc3339_eq]
  exact momentText_lt_iff hyear hyear'

/-! ## The text of the database -/

/-- `datetime`: the text that the database has for a second. -/
def datetimeText (second : Int) : List Char := momentText ' ' [] second

/-- `YYYY-MM-DD`. -/
def dayText (second : Int) : List Char :=
  let civil := civilDay (second / 86400 + epochDays)
  yearText civil.year ++ '-' :: (padded 2 (civil.month + 1) ++ '-' :: padded 2 (civil.day + 1))

/-- ` HH:MM`. -/
def minuteText (second : Int) : List Char :=
  let clock := (second % 86400).toNat
  ' ' :: (padded 2 (clock / 3600) ++ ':' :: padded 2 (clock / 60 % 60))

/-- `:SS`. -/
def secondText (second : Int) : List Char := ':' :: padded 2 ((second % 86400).toNat % 60)

theorem datetimeText_eq (second : Int) :
    datetimeText second = dayText second ++ (minuteText second ++ secondText second) := by
  unfold datetimeText momentText dayText minuteText secondText
  simp only [List.append_assoc, List.cons_append, List.append_nil]

theorem dayText_length {second : Int} (hyear : FourDigitYear second) :
    (dayText second).length = 10 := by
  unfold dayText
  dsimp only
  rw [yearText_of_fourDigit (fourDigitYear_iff.mp hyear)]
  simp only [List.length_append, List.length_cons, padded_length]

theorem minuteText_length (second : Int) : (minuteText second).length = 6 := by
  unfold minuteText
  simp only [List.length_append, List.length_cons, padded_length]

theorem secondText_length (second : Int) : (secondText second).length = 3 := by
  unfold secondText
  simp only [List.length_cons, padded_length]

theorem datetimeText_lt_iff {second second' : Int} (hyear : FourDigitYear second)
    (hyear' : FourDigitYear second') :
    datetimeText second < datetimeText second' ↔ second < second' := momentText_lt_iff hyear hyear'

/-! ## Reading a text -/

/-- A number of `width` digits at the head of the text. -/
def readNumber (width : Nat) (text : List Char) : Option (Nat × List Char) :=
  if (text.take width).length = width ∧ (text.take width).all Char.isDigit then
    some (digitsValue (text.take width), text.drop width)
  else none

def readChar (c : Char) : List Char → Option (List Char)
  | [] => none
  | d :: rest => if d = c then some rest else none

/-- Days of a month. -/
def monthLength (leap : Bool) (month : Nat) : Nat := monthStart leap (month + 1) - monthStart leap month

/-- `DateTime::parse_from_rfc3339`, of a text in whole seconds and UTC. -/
def parseRfc3339 (text : List Char) : Option Int := do
  let (year, text) ← readNumber 4 text
  let text ← readChar '-' text
  let (month, text) ← readNumber 2 text
  let text ← readChar '-' text
  let (day, text) ← readNumber 2 text
  let text ← readChar 'T' text
  let (hour, text) ← readNumber 2 text
  let text ← readChar ':' text
  let (minute, text) ← readNumber 2 text
  let text ← readChar ':' text
  let (second, text) ← readNumber 2 text
  let text ← readChar 'Z' text
  let leap := isLeap (year % 400)
  if text = [] ∧ 1 ≤ month ∧ month ≤ 12 ∧ 1 ≤ day ∧ day ≤ monthLength leap (month - 1)
      ∧ hour < 24 ∧ minute < 60 ∧ second < 60 then
    some ((daysOf { year := year, month := month - 1, day := day - 1 } - epochDays) * 86400
      + hour * 3600 + minute * 60 + second)
  else none

theorem readNumber_padded {width n : Nat} (hn : n < 10 ^ width) (rest : List Char) :
    readNumber width (padded width n ++ rest) = some (n, rest) := by
  have htake : (padded width n ++ rest).take width = padded width n := by
    rw [List.take_append_of_le_length (by rw [padded_length]), List.take_of_length_le
      (by rw [padded_length])]
  have hdrop : (padded width n ++ rest).drop width = rest :=
    List.drop_left' (padded_length width n)
  unfold readNumber
  rw [htake, hdrop, if_pos ⟨padded_length width n, padded_isDigit width n⟩, digitsValue_padded hn]

/-- A number does not begin with a sign. -/
theorem readNumber_sign {width : Nat} {c : Char} (hc : c.isDigit = false) (rest : List Char) :
    readNumber (width + 1) (c :: rest) = none := by
  unfold readNumber
  rw [List.take_succ_cons, List.all_cons, hc, Bool.false_and]
  exact if_neg fun h => Bool.false_ne_true h.2

theorem readChar_cons (c : Char) (rest : List Char) : readChar c (c :: rest) = some rest :=
  if_pos rfl

theorem civilDay_day_le (days : Int) : (civilDay days).day
    < monthLength (isLeap ((civilDay days).year % 400).toNat) (civilDay days).month := by
  have hlt := lt_monthOf_succ (inYear_lt (days % cycle).toNat)
  have hle := monthOf_le (isLeap (yearOf (days % cycle).toNat))
    ((days % cycle).toNat - yearStart (yearOf (days % cycle).toNat))
  rw [(civilDay_year days).2]
  unfold civilDay monthLength
  dsimp only
  omega

theorem parseRfc3339_rfc3339 {second : Int} (hyear : FourDigitYear second) :
    parseRfc3339 (rfc3339 second) = some second := by
  have hyear := fourDigitYear_iff.mp hyear
  have hmonth := civilDay_month_lt (second / 86400 + epochDays)
  have hday := civilDay_day_lt (second / 86400 + epochDays)
  have hlast := civilDay_day_le (second / 86400 + epochDays)
  have hdays := daysOf_civilDay (second / 86400 + epochDays)
  unfold rfc3339
  dsimp only
  generalize civilDay (second / 86400 + epochDays) = civil at hyear hmonth hday hlast hdays ⊢
  rw [yearText_of_fourDigit hyear]
  have hrem : (civil.year % 400).toNat = civil.year.toNat % 400 := by omega
  rw [hrem] at hlast
  have hsame : CivilDay.mk civil.year.toNat (civil.month + 1 - 1) (civil.day + 1 - 1) = civil := by
    rw [CivilDay.mk.injEq]
    exact ⟨by omega, by omega, by omega⟩
  unfold parseRfc3339
  simp only [@readNumber_padded 4 civil.year.toNat (by omega),
    @readNumber_padded 2 (civil.month + 1) (by omega), @readNumber_padded 2 (civil.day + 1) (by omega),
    @readNumber_padded 2 ((second % 86400).toNat / 3600) (by omega),
    @readNumber_padded 2 ((second % 86400).toNat / 60 % 60) (by omega),
    @readNumber_padded 2 ((second % 86400).toNat % 60) (by omega), readChar_cons,
    Option.bind_eq_bind, Option.bind_some]
  rw [if_pos ⟨trivial, by omega, by omega, by omega, by rw [Nat.add_sub_cancel]; omega, by omega,
    by omega, by omega⟩, hsame, hdays]
  congr 1
  omega

/-- A signed year is not read. -/
theorem parseRfc3339_signed {second : Int} (hyear : ¬ FourDigitYear second) :
    parseRfc3339 (rfc3339 second) = none := by
  have hyear := fun h => hyear (fourDigitYear_iff.mpr h)
  unfold rfc3339
  dsimp only
  rw [yearText, if_neg hyear]
  unfold parseRfc3339
  rw [List.cons_append, readNumber_sign (by split <;> rfl)]
  rfl

example : rfc3339 1785576600 = "2026-08-01T09:30:00Z".toList := by decide +kernel

end Lib
