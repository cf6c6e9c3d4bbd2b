import Mathlib.Data.Prod.Lex
import Mathlib.Order.Cover
import Mathlib.Tactic.IntervalCases

/-!
# The proleptic Gregorian calendar

Dates, the next and the previous one, and the date of a day counted from the first of January
1970.  The years are integers: the calendar is extended to the years before it was introduced.

The day number of a date (`Date.dayNumber`) is counted from the first of March of the year 0.
Years that begin in March have their leap day at the end, so the months before it begin at the same
day of every year.  The next date has the next number (`dayNumber_next`) and the order of the dates
is that of their numbers (`dayNumber_lt_dayNumber_iff`); a date is therefore known by its number.
-/

namespace Gregorian

/-! ## Dates -/

/-- Leap years. -/
def IsLeap (y : Int) : Prop := y % 4 = 0 ∧ (y % 100 ≠ 0 ∨ y % 400 = 0)

instance (y : Int) : Decidable (IsLeap y) := inferInstanceAs (Decidable (_ ∧ _))

/-- The length of a month. -/
def daysInMonth (y m : Int) : Int :=
  if m = 2 then if IsLeap y then 29 else 28
  else if m = 4 ∨ m = 6 ∨ m = 9 ∨ m = 11 then 30
  else 31

theorem daysInMonth_pos (y m : Int) : 1 ≤ daysInMonth y m := by
  unfold daysInMonth
  split_ifs <;> decide

/-- A date. -/
@[ext]
structure Date where
  year : Int
  month : Int
  day : Int
  month_pos : 1 ≤ month
  month_le : month ≤ 12
  day_pos : 1 ≤ day
  day_le : day ≤ daysInMonth year month
  deriving DecidableEq

namespace Date

/-- The first of January 1970. -/
def epoch : Date := ⟨1970, 1, 1, by decide, by decide, by decide, by decide⟩

/-- The day after. -/
def next (d : Date) : Date :=
  if hday : d.day < daysInMonth d.year d.month then
    { d with
      day := d.day + 1
      day_pos := Int.le_add_one d.day_pos
      day_le := hday }
  else if hmonth : d.month < 12 then
    ⟨d.year, d.month + 1, 1, Int.le_add_one d.month_pos, hmonth, le_refl _, daysInMonth_pos _ _⟩
  else ⟨d.year + 1, 1, 1, le_refl _, by decide, le_refl _, daysInMonth_pos _ _⟩

/-- The day before. -/
def prev (d : Date) : Date :=
  if hday : 1 < d.day then
    { d with
      day := d.day - 1
      day_pos := Int.le_sub_one_of_lt hday
      day_le := (Int.sub_le_self _ (by decide)).trans d.day_le }
  else if hmonth : 1 < d.month then
    ⟨d.year, d.month - 1, daysInMonth d.year (d.month - 1), Int.le_sub_one_of_lt hmonth,
      (Int.sub_le_self _ (by decide)).trans d.month_le, daysInMonth_pos _ _, le_refl _⟩
  else ⟨d.year - 1, 12, 31, by decide, le_refl _, by decide, le_refl _⟩

/-- The date of a day, counted from the first of January 1970. -/
def ofDays : Int → Date
  | .ofNat n => next^[n] epoch
  | .negSucc n => prev^[n + 1] epoch

/-- Dates are ordered by year, month and day. -/
instance : LinearOrder Date :=
  LinearOrder.lift' (fun d => toLex (d.year, toLex (d.month, d.day))) fun d e h => by
    obtain ⟨hyear, hrest⟩ := Prod.mk.inj (toLex.injective h)
    obtain ⟨hmonth, hday⟩ := Prod.mk.inj (toLex.injective hrest)
    exact Date.ext hyear hmonth hday

theorem lt_iff {d e : Date} :
    d < e ↔ d.year < e.year ∨ (d.year = e.year ∧
      (d.month < e.month ∨ (d.month = e.month ∧ d.day < e.day))) := by
  have hlex : d < e ↔ toLex (d.year, toLex (d.month, d.day)) <
      toLex (e.year, toLex (e.month, e.day)) := Iff.rfl
  rw [hlex, Prod.Lex.lt_iff, Prod.Lex.lt_iff]
  rfl

end Date

/-! ## Years that begin in March -/

/-- The number of the first of March of a year. -/
def yearStart (y : Int) : Int := 365 * y + y / 4 - y / 100 + y / 400

/-- The day of the year on which a month begins, March being month 0. -/
def monthStart (m : Int) : Int := (153 * m + 2) / 5

theorem yearStart_succ (y : Int) :
    yearStart (y + 1) = yearStart y + 365 + if IsLeap (y + 1) then 1 else 0 := by
  unfold yearStart IsLeap
  split_ifs with hleap
  · omega
  · omega

theorem yearStart_le {y y' : Int} (h : y ≤ y') : yearStart y ≤ yearStart y' := by
  unfold yearStart
  omega

theorem monthStart_le {m m' : Int} (h : m ≤ m') : monthStart m ≤ monthStart m' := by
  unfold monthStart
  omega

/-- The calendar's number of a month. -/
def calendarMonth (m : Int) : Int := if m < 10 then m + 3 else m - 9

/-- Every month but the last begins where the one before it ends. -/
theorem monthStart_succ (y : Int) {m : Int} (h0 : 0 ≤ m) (h11 : m < 11) :
    monthStart (m + 1) = monthStart m + daysInMonth y (calendarMonth m) := by
  interval_cases m <;> rfl

/-- The last month ends with the year. -/
theorem monthStart_february (y : Int) :
    monthStart 11 + daysInMonth y (calendarMonth 11) = 365 + if IsLeap y then 1 else 0 := by
  have hfebruary : daysInMonth y (calendarMonth 11) = if IsLeap y then 29 else 28 := rfl
  have hstart : monthStart 11 = 337 := rfl
  rw [hfebruary, hstart]
  split_ifs <;> rfl

namespace Date

/-- The year of a date if years begin in March. -/
def marchYear (d : Date) : Int := if d.month ≤ 2 then d.year - 1 else d.year

/-- Its month. -/
def marchMonth (d : Date) : Int := if d.month ≤ 2 then d.month + 9 else d.month - 3

/-- The day of that year. -/
def marchDay (d : Date) : Int := monthStart d.marchMonth + d.day - 1

/-- The number of a date. -/
def dayNumber (d : Date) : Int := yearStart d.marchYear + d.marchDay

section Bounds

variable (d : Date)

theorem marchMonth_bounds : 0 ≤ d.marchMonth ∧ d.marchMonth ≤ 11 := by
  have hpos := d.month_pos
  have hle := d.month_le
  unfold marchMonth
  split_ifs <;> omega

theorem calendarMonth_marchMonth : calendarMonth d.marchMonth = d.month := by
  have hpos := d.month_pos
  have hle := d.month_le
  unfold calendarMonth marchMonth
  split_ifs <;> omega

theorem monthStart_le_marchDay : monthStart d.marchMonth ≤ d.marchDay := by
  have hpos := d.day_pos
  unfold marchDay
  omega

theorem marchDay_lt_monthStart (hmonth : d.marchMonth < 11) :
    d.marchDay < monthStart (d.marchMonth + 1) := by
  have hle := d.day_le
  rw [monthStart_succ d.year d.marchMonth_bounds.1 hmonth, calendarMonth_marchMonth]
  unfold marchDay
  omega

/-- The last month of such a year is the February of the next. -/
theorem marchYear_of_february (hmonth : d.marchMonth = 11) : d.year = d.marchYear + 1 := by
  unfold marchMonth at hmonth
  unfold marchYear
  have hle := d.month_le
  split_ifs at hmonth ⊢ <;> omega

theorem marchDay_lt : d.marchDay < 365 + if IsLeap (d.marchYear + 1) then 1 else 0 := by
  by_cases hmonth : d.marchMonth < 11
  · have hlt := d.marchDay_lt_monthStart hmonth
    have hstart : monthStart (d.marchMonth + 1) ≤ monthStart 11 := monthStart_le (by omega)
    have heq : monthStart 11 = 337 := rfl
    split_ifs <;> omega
  · have hlast : d.marchMonth = 11 := le_antisymm d.marchMonth_bounds.2 (not_lt.mp hmonth)
    have hle := d.day_le
    rw [← d.marchYear_of_february hlast, ← monthStart_february, ← hlast, calendarMonth_marchMonth]
    unfold marchDay
    omega

theorem yearStart_le_dayNumber : yearStart d.marchYear ≤ d.dayNumber := by
  have hle := d.monthStart_le_marchDay
  have hzero : monthStart 0 ≤ monthStart d.marchMonth := monthStart_le d.marchMonth_bounds.1
  have heq : monthStart 0 = 0 := rfl
  unfold dayNumber
  omega

theorem dayNumber_lt_yearStart : d.dayNumber < yearStart (d.marchYear + 1) := by
  have hlt := d.marchDay_lt
  rw [yearStart_succ, dayNumber]
  omega

end Bounds

/-! ## The order of the numbers -/

/-- **Later dates have greater numbers.** -/
theorem dayNumber_lt_of_lt {d e : Date} (h : d < e) : d.dayNumber < e.dayNumber := by
  have hlex : d.marchYear < e.marchYear ∨ (d.marchYear = e.marchYear ∧
      (d.marchMonth < e.marchMonth ∨ (d.marchMonth = e.marchMonth ∧ d.day < e.day))) := by
    have hd := d.month_le
    have he := e.month_pos
    rw [lt_iff] at h
    unfold marchYear marchMonth
    split_ifs <;> omega
  rcases hlex with hyear | ⟨hyear, hmonth | ⟨hmonth, hday⟩⟩
  · calc d.dayNumber < yearStart (d.marchYear + 1) := d.dayNumber_lt_yearStart
      _ ≤ yearStart e.marchYear := yearStart_le hyear
      _ ≤ e.dayNumber := e.yearStart_le_dayNumber
  · have hlt : d.marchDay < e.marchDay :=
      calc d.marchDay < monthStart (d.marchMonth + 1) :=
            d.marchDay_lt_monthStart (hmonth.trans_le e.marchMonth_bounds.2)
        _ ≤ monthStart e.marchMonth := monthStart_le hmonth
        _ ≤ e.marchDay := e.monthStart_le_marchDay
    rw [dayNumber, dayNumber, hyear]
    omega
  · rw [dayNumber, dayNumber, hyear, marchDay, marchDay, hmonth]
    omega

theorem dayNumber_lt_dayNumber_iff {d e : Date} : d.dayNumber < e.dayNumber ↔ d < e := by
  refine ⟨fun h => ?_, dayNumber_lt_of_lt⟩
  rcases lt_trichotomy d e with hlt | rfl | hgt
  · exact hlt
  · exact absurd h (lt_irrefl _)
  · exact absurd h (dayNumber_lt_of_lt hgt).not_gt

/-- A date is known by its number. -/
theorem dayNumber_inj {d e : Date} (h : d.dayNumber = e.dayNumber) : d = e := by
  rcases lt_trichotomy d e with hlt | rfl | hgt
  · exact absurd h (dayNumber_lt_of_lt hlt).ne
  · rfl
  · exact absurd h (dayNumber_lt_of_lt hgt).ne'

/-! ## Day by day -/

/-- The first of a month has the number behind that of the last day of the month before. -/
theorem dayNumber_first {d e : Date} (hlast : d.day = daysInMonth d.year d.month)
    (hfirst : e.day = 1) (hmonth : (e.year = d.year ∧ e.month = d.month + 1) ∨
      (e.year = d.year + 1 ∧ d.month = 12 ∧ e.month = 1)) : e.dayNumber = d.dayNumber + 1 := by
  have hpos := d.month_pos
  have hle := e.month_le
  by_cases hfebruary : d.month = 2
  · -- The year ends with the day before.
    have hmarch : d.marchMonth = 11 ∧ e.marchMonth = 0 ∧ e.marchYear = d.marchYear + 1 := by
      unfold marchMonth marchYear
      split_ifs <;> omega
    obtain ⟨hd, he, hyear⟩ := hmarch
    have hlen := monthStart_february d.year
    rw [← hd, calendarMonth_marchMonth, ← hlast, d.marchYear_of_february hd] at hlen
    have hzero : monthStart 0 = 0 := rfl
    rw [dayNumber, dayNumber, marchDay, marchDay, hfirst, hyear, yearStart_succ, he, hzero]
    omega
  · have hmarch : d.marchMonth < 11 ∧ e.marchMonth = d.marchMonth + 1 ∧
        e.marchYear = d.marchYear := by
      unfold marchMonth marchYear
      split_ifs <;> omega
    obtain ⟨hd, he, hyear⟩ := hmarch
    rw [dayNumber, dayNumber, marchDay, marchDay, hfirst, hyear, he,
      monthStart_succ d.year d.marchMonth_bounds.1 hd, calendarMonth_marchMonth, ← hlast]
    omega

theorem dayNumber_next (d : Date) : d.next.dayNumber = d.dayNumber + 1 := by
  have hle := d.day_le
  unfold next
  split_ifs with hday hmonth
  · unfold dayNumber marchDay marchYear marchMonth
    dsimp only
    omega
  · exact dayNumber_first (le_antisymm hle (not_lt.mp hday)) rfl (.inl ⟨rfl, rfl⟩)
  · have htwelve : d.month = 12 := le_antisymm d.month_le (not_lt.mp hmonth)
    exact dayNumber_first (le_antisymm hle (not_lt.mp hday)) rfl (.inr ⟨rfl, htwelve, rfl⟩)

theorem dayNumber_prev (d : Date) : d.prev.dayNumber = d.dayNumber - 1 := by
  have hpos := d.day_pos
  unfold prev
  split_ifs with hday hmonth
  · unfold dayNumber marchDay marchYear marchMonth
    dsimp only
    omega
  · refine eq_sub_of_add_eq (dayNumber_first rfl (le_antisymm (not_lt.mp hday) hpos) ?_).symm
    exact .inl ⟨rfl, (Int.sub_add_cancel _ _).symm⟩
  · have hone : d.month = 1 := le_antisymm (not_lt.mp hmonth) d.month_pos
    refine eq_sub_of_add_eq (dayNumber_first rfl (le_antisymm (not_lt.mp hday) hpos) ?_).symm
    exact .inr ⟨(Int.sub_add_cancel _ _).symm, rfl, hone⟩

/-- The number of the first of January 1970. -/
theorem dayNumber_epoch : epoch.dayNumber = 719468 := rfl

/-- **The date of a day has its number.** -/
theorem dayNumber_ofDays (n : Int) : (ofDays n).dayNumber = n + 719468 := by
  have hnext (k : Nat) : (next^[k] epoch).dayNumber = k + 719468 := by
    induction k with
    | zero => exact dayNumber_epoch
    | succ k ih =>
      rw [Function.iterate_succ_apply', dayNumber_next, ih]
      omega
  have hprev (k : Nat) : (prev^[k] epoch).dayNumber = 719468 - k := by
    induction k with
    | zero => exact dayNumber_epoch
    | succ k ih =>
      rw [Function.iterate_succ_apply', dayNumber_prev, ih]
      omega
  cases n with
  | ofNat k => exact hnext k
  | negSucc k =>
    have hk := hprev (k + 1)
    rw [ofDays, hk]
    omega

theorem eq_ofDays {d : Date} {n : Int} (h : d.dayNumber = n + 719468) : d = ofDays n :=
  dayNumber_inj (h.trans (dayNumber_ofDays n).symm)

/-- The next day has the next date. -/
theorem ofDays_succ (n : Int) : ofDays (n + 1) = (ofDays n).next := by
  refine (eq_ofDays ?_).symm
  rw [dayNumber_next, dayNumber_ofDays]
  omega

theorem ofDays_lt_ofDays_iff {m n : Int} : ofDays m < ofDays n ↔ m < n := by
  rw [← dayNumber_lt_dayNumber_iff, dayNumber_ofDays, dayNumber_ofDays]
  omega

theorem ofDays_le_ofDays {m n : Int} (h : m ≤ n) : ofDays m ≤ ofDays n := by
  rw [← not_lt, ofDays_lt_ofDays_iff]
  omega

theorem ofDays_inj {m n : Int} (h : ofDays m = ofDays n) : m = n := by
  have hnumber := congrArg dayNumber h
  rw [dayNumber_ofDays, dayNumber_ofDays] at hnumber
  omega

/-- **No date is repeated and none is left out**: between those of two days in a row there is no
third. -/
theorem ofDays_covBy_succ (n : Int) : ofDays n ⋖ ofDays (n + 1) := by
  constructor
  · rw [ofDays_lt_ofDays_iff]
    omega
  · intro d hlow hhigh
    rw [← dayNumber_lt_dayNumber_iff, dayNumber_ofDays] at hlow hhigh
    omega

end Date

/-! ## Finding the date of a number -/

/-- The days of a cycle of four hundred years without the leap days, nearly. -/
def plainDays (doe : Int) : Int := doe - doe / 1460 + doe / 36524 - doe / 146096

theorem plainDays_le {a b : Int} (h : a ≤ b) : plainDays a ≤ plainDays b := by
  have hfour (n : Int) : n / 146096 = n / 36524 / 4 := by omega
  have hday : a - a / 1460 ≤ b - b / 1460 := by omega
  have hcentury : a / 36524 ≤ b / 36524 := Int.ediv_le_ediv (by decide) h
  unfold plainDays
  rw [hfour a, hfour b]
  omega

/-- It suffices to look at the first and at the last day of each year. -/
theorem plainDays_year : ∀ y : Nat, y < 400 →
    365 * (y : Int) ≤ plainDays (yearStart y) ∧
      plainDays (yearStart (y + 1) - 1) < 365 * (y + 1) := by
  decide +kernel

/-- The year of a day of the cycle. -/
def yearOfEra (doe : Int) : Int := plainDays doe / 365

theorem yearOfEra_bounds {doe : Int} (h0 : 0 ≤ doe) (h1 : doe < 146097) :
    0 ≤ yearOfEra doe ∧ yearOfEra doe < 400 := by
  have hzero : plainDays 0 ≤ plainDays doe := plainDays_le h0
  have hlast : plainDays doe ≤ plainDays 146096 := plainDays_le (by omega)
  have hvalues : plainDays 0 = 0 ∧ plainDays 146096 = 145999 := ⟨rfl, rfl⟩
  unfold yearOfEra
  omega

/-- **The year is the one the day stands in.** -/
theorem yearOfEra_spec {doe : Int} (h0 : 0 ≤ doe) (h1 : doe < 146097) :
    yearStart (yearOfEra doe) ≤ doe ∧ doe < yearStart (yearOfEra doe + 1) := by
  obtain ⟨hpos, hlt⟩ := yearOfEra_bounds h0 h1
  obtain ⟨y, hy⟩ := Int.eq_ofNat_of_zero_le hpos
  have hcount : 365 * (y : Int) ≤ plainDays doe ∧ plainDays doe < 365 * (y + 1) := by
    rw [← hy]
    unfold yearOfEra
    omega
  rw [hy]
  constructor
  · by_contra hbefore
    -- A day before the year is counted at most as the last day of the year before.
    obtain ⟨k, rfl⟩ : ∃ k, y = k + 1 := by
      refine Nat.exists_eq_succ_of_ne_zero ?_
      rintro rfl
      exact hbefore h0
    have hyear := (plainDays_year k (by omega)).2
    have hle : plainDays doe ≤ plainDays (yearStart (k + 1) - 1) := plainDays_le (by
      push_cast at hbefore
      omega)
    omega
  · by_contra hafter
    rw [not_lt] at hafter
    by_cases hlast : y + 1 < 400
    · have hyear := (plainDays_year (y + 1) hlast).1
      have hle := plainDays_le hafter
      push_cast at hyear
      omega
    · have hend : yearStart (399 + 1) = 146097 := rfl
      have hy399 : (y : Int) = 399 := by omega
      rw [hy399, hend] at hafter
      omega

theorem yearStart_era (era y : Int) : yearStart (400 * era + y) = 146097 * era + yearStart y := by
  unfold yearStart
  omega

/-- The month of a day of the year. -/
def monthOfYear (doy : Int) : Int := (5 * doy + 2) / 153

theorem monthOfYear_spec {doy : Int} (h0 : 0 ≤ doy) (h1 : doy ≤ 365) :
    0 ≤ monthOfYear doy ∧ monthOfYear doy ≤ 11 ∧ monthStart (monthOfYear doy) ≤ doy ∧
      doy < monthStart (monthOfYear doy + 1) := by
  unfold monthOfYear monthStart
  omega

/-- The date of a day of a year that begins in March. -/
theorem exists_date_of_year {y doy : Int} (h0 : 0 ≤ doy)
    (h1 : doy < 365 + if IsLeap (y + 1) then 1 else 0) :
    ∃ d : Date, d.year = y + (if calendarMonth (monthOfYear doy) ≤ 2 then 1 else 0) ∧
      d.month = calendarMonth (monthOfYear doy) ∧
      d.day = doy - monthStart (monthOfYear doy) + 1 ∧ d.dayNumber = yearStart y + doy := by
  have h365 : doy ≤ 365 := by
    split_ifs at h1 <;> omega
  obtain ⟨hmp0, hmp11, hfirst, hnext⟩ := monthOfYear_spec h0 h365
  generalize monthOfYear doy = mp at *
  have hmonth : 1 ≤ calendarMonth mp ∧ calendarMonth mp ≤ 12 := by
    unfold calendarMonth
    split_ifs <;> omega
  have hday : doy - monthStart mp + 1 ≤
      daysInMonth (y + if calendarMonth mp ≤ 2 then 1 else 0) (calendarMonth mp) := by
    rcases hmp11.lt_or_eq with hlt | rfl
    · rw [monthStart_succ (y + if calendarMonth mp ≤ 2 then 1 else 0) hmp0 hlt] at hnext
      omega
    · have hlen := monthStart_february (y + 1)
      rw [if_pos (by decide)]
      omega
  refine ⟨⟨_, _, _, hmonth.1, hmonth.2, by omega, hday⟩, rfl, rfl, rfl, ?_⟩
  have hmarch :
      (if calendarMonth mp ≤ 2 then calendarMonth mp + 9 else calendarMonth mp - 3) = mp := by
    unfold calendarMonth
    split_ifs <;> omega
  unfold Date.dayNumber Date.marchDay Date.marchYear Date.marchMonth
  dsimp only
  rw [hmarch]
  split_ifs <;> simp only [add_sub_cancel_right, add_zero] <;> omega

/-- **The date of a number, from the cycle and the day of it.** -/
theorem exists_date (era : Int) {doe : Int} (h0 : 0 ≤ doe) (h1 : doe < 146097) :
    ∃ d : Date,
      d.year = 400 * era + yearOfEra doe +
        (if calendarMonth (monthOfYear (doe - yearStart (yearOfEra doe))) ≤ 2 then 1 else 0) ∧
      d.month = calendarMonth (monthOfYear (doe - yearStart (yearOfEra doe))) ∧
      d.day = doe - yearStart (yearOfEra doe) -
        monthStart (monthOfYear (doe - yearStart (yearOfEra doe))) + 1 ∧
      d.dayNumber = 146097 * era + doe := by
  obtain ⟨hstart, hend⟩ := yearOfEra_spec h0 h1
  have hera := yearStart_era era (yearOfEra doe)
  have hlast : doe - yearStart (yearOfEra doe) <
      365 + if IsLeap (400 * era + yearOfEra doe + 1) then 1 else 0 := by
    have hsucc := yearStart_succ (400 * era + yearOfEra doe)
    have hera' := yearStart_era era (yearOfEra doe + 1)
    rw [← add_assoc] at hera'
    omega
  obtain ⟨d, hyear, hmonth, hday, hnumber⟩ := exists_date_of_year (sub_nonneg.mpr hstart) hlast
  exact ⟨d, hyear, hmonth, hday, by omega⟩

end Gregorian
