import Flannel.Ip.Display
import Flannel.Lib.Checked
import Flannel.Lib.Gregorian
import Flannel.Lib.Text

/-!
# Timestamps

`rfc3339_utc` of `kube/status.rs` prints the time of a node condition, and `utc_date` of
`tencentvpc/api.rs` the date of a signature.  Both turn a day into a date by hand, with the years
beginning in March and in cycles of four hundred: the cycle, the day of it, the year, the day of
that, the month.

They find the date of the calendar for every timestamp, and print it in full from the year 1 on.
The arithmetic is that of sixty-four bit integers, so every step is checked.
-/

namespace Flannel

open Gregorian

namespace Timestamp

/-! ## The code -/

/-- `SystemTime`, in seconds since the epoch and nanoseconds behind them. -/
structure SystemTime where
  secs : Int
  nanos : Nat
  deriving DecidableEq, Repr

/-- The seconds since the epoch, none before it. -/
def SystemTime.asSecs (t : SystemTime) : Nat := if 0 ≤ t.secs then t.secs.toNat else 0

/-- `{:0width}` of an unsigned number. -/
def fmtU64 (width n : Nat) : String := Text.zeroPad width (Nat.toDigits 10 n)

/-- `{:0width}` of a signed number; the sign takes part in the width. -/
def fmtI64 (width : Nat) (n : Int) : String :=
  if n < 0 then "-" ++ Text.zeroPad (width - 1) (Nat.toDigits 10 n.natAbs)
  else Text.zeroPad width (Nat.toDigits 10 n.natAbs)

/-- `yoe`, the year of the cycle. -/
def yearOf (doe : Int) : Option Int := do
  let days ← Checked.i64 (doe - doe.tdiv 1460)
  let days ← Checked.i64 (days + doe.tdiv 36524)
  let days ← Checked.i64 (days - doe.tdiv 146096)
  return days.tdiv 365

/-- `doy`, the day of that year. -/
def dayOfYear (doe yoe : Int) : Option Int := do
  let start ← Checked.i64 (365 * yoe)
  let start ← Checked.i64 (start + yoe.tdiv 4)
  let start ← Checked.i64 (start - yoe.tdiv 100)
  Checked.i64 (doe - start)

/-- `mp`, `m` and `d`. -/
def monthAndDay (doy : Int) : Option (Int × Int) := do
  let days ← Checked.i64 (5 * doy)
  let days ← Checked.i64 (days + 2)
  let mp := days.tdiv 153
  let start ← Checked.i64 (153 * mp)
  let start ← Checked.i64 (start + 2)
  let d ← Checked.i64 (doy - start.tdiv 5)
  let d ← Checked.i64 (d + 1)
  let m ← Checked.i64 (if mp < 10 then mp + 3 else mp - 9)
  return (m, d)

/-- The part that the two functions share: the year of the cycle, the month and the day. -/
def yearMonthDay (doe : Int) : Option (Int × Int × Int) := do
  let yoe ← yearOf doe
  let doy ← dayOfYear doe yoe
  let (m, d) ← monthAndDay doy
  return (yoe, m, d)

/-- `rfc3339_utc`. -/
def rfc3339Utc (t : SystemTime) : Option String := do
  let secs := t.asSecs
  let days : Int := secs / 86400
  let rem := secs % 86400
  let (hour, min, sec) := (rem / 3600, rem / 60 % 60, rem % 60)
  let z ← Checked.i64 (days + 719468)
  let floor ← Checked.i64 (if 0 ≤ z then z else z - 146096)
  let era := floor.tdiv 146097
  let first ← Checked.i64 (era * 146097)
  let doe ← Checked.i64 (z - first)
  let (yoe, m, d) ← yearMonthDay doe
  let y ← Checked.i64 (era * 400)
  let y ← Checked.i64 (yoe + y)
  let year ← Checked.i64 (if m ≤ 2 then y + 1 else y)
  return s!"{fmtI64 4 year}-{fmtI64 2 m}-{fmtI64 2 d}" ++
    s!"T{fmtU64 2 hour}:{fmtU64 2 min}:{fmtU64 2 sec}Z"

/-- `utc_date`. -/
def utcDate (timestamp : Int) : Option String := do
  let z ← Checked.i64 (timestamp / 86400 + 719468)
  let era := z / 146097
  let doe := z % 146097
  let (yoe, month, day) ← yearMonthDay doe
  let year ← Checked.i64 (era * 400)
  let year ← Checked.i64 (year + yoe)
  let year ← Checked.i64 (year + if month ≤ 2 then 1 else 0)
  return s!"{fmtI64 4 year}-{fmtI64 2 month}-{fmtI64 2 day}"

/-! ## The date of a day -/

theorem yearOf_eq {doe : Int} (h0 : 0 ≤ doe) (h1 : doe < 146097) :
    yearOf doe = some (yearOfEra doe) := by
  unfold yearOf yearOfEra plainDays
  rw [Int.tdiv_eq_ediv_of_nonneg h0, Int.tdiv_eq_ediv_of_nonneg h0, Int.tdiv_eq_ediv_of_nonneg h0,
    Checked.i64_bind (by omega), Checked.i64_bind (by omega), Checked.i64_bind (by omega),
    Int.tdiv_eq_ediv_of_nonneg (by omega)]
  rfl

theorem dayOfYear_eq {doe yoe : Int} (h0 : 0 ≤ doe) (h1 : doe < 146097) (hyoe : 0 ≤ yoe)
    (hlt : yoe < 400) : dayOfYear doe yoe = some (doe - yearStart yoe) := by
  unfold dayOfYear yearStart
  rw [Int.tdiv_eq_ediv_of_nonneg hyoe, Int.tdiv_eq_ediv_of_nonneg hyoe,
    Checked.i64_bind (by omega), Checked.i64_bind (by omega), Checked.i64_bind (by omega),
    Checked.i64_of_bounds (by omega)]
  have hcycle : yoe / 400 = 0 := by omega
  rw [hcycle, add_zero]

theorem monthAndDay_eq {doy : Int} (h0 : 0 ≤ doy) (h1 : doy ≤ 365) :
    monthAndDay doy = some (calendarMonth (monthOfYear doy),
      doy - monthStart (monthOfYear doy) + 1) := by
  obtain ⟨hmp0, hmp11, -, -⟩ := monthOfYear_spec h0 h1
  unfold monthAndDay
  rw [Checked.i64_bind (by omega), Checked.i64_bind (by omega)]
  have hmp : (5 * doy + 2).tdiv 153 = monthOfYear doy := Int.tdiv_eq_ediv_of_nonneg (by omega)
  simp only [hmp]
  generalize monthOfYear doy = mp at *
  have hstart : (153 * mp + 2).tdiv 5 = monthStart mp := Int.tdiv_eq_ediv_of_nonneg (by omega)
  have hbounds : 0 ≤ monthStart mp ∧ monthStart mp ≤ 337 := by
    unfold monthStart
    omega
  rw [Checked.i64_bind (by omega), Checked.i64_bind (by omega), hstart, Checked.i64_bind (by omega),
    Checked.i64_bind (by omega), Checked.i64_bind (by split_ifs <;> omega)]
  rfl

/-- **The shared part finds the date**, for every cycle the day may stand in. -/
theorem yearMonthDay_spec (era : Int) {doe : Int} (h0 : 0 ≤ doe) (h1 : doe < 146097) :
    ∃ (yoe : Int) (d : Date), yearMonthDay doe = some (yoe, d.month, d.day) ∧ 0 ≤ yoe ∧ yoe < 400 ∧
      d.year = 400 * era + yoe + (if d.month ≤ 2 then 1 else 0) ∧
      d.dayNumber = 146097 * era + doe := by
  obtain ⟨hyoe0, hyoe1⟩ := yearOfEra_bounds h0 h1
  obtain ⟨hstart, hend⟩ := yearOfEra_spec h0 h1
  have hdoy : doe - yearStart (yearOfEra doe) ≤ 365 := by
    rw [yearStart_succ] at hend
    split_ifs at hend <;> omega
  obtain ⟨d, hyear, hmonth, hday, hnumber⟩ := exists_date era h0 h1
  refine ⟨yearOfEra doe, d, ?_, hyoe0, hyoe1, ?_, hnumber⟩
  · rw [yearMonthDay, yearOf_eq h0 h1, Option.bind_eq_bind, Option.bind_some,
      dayOfYear_eq h0 h1 hyoe0 hyoe1, Option.bind_eq_bind, Option.bind_some,
      monthAndDay_eq (sub_nonneg.mpr hstart) hdoy, hmonth, hday]
    rfl
  · rw [hmonth]
    exact hyear

/-- The date as the two functions print it. -/
def printedDate (d : Date) : String := s!"{fmtI64 4 d.year}-{fmtI64 2 d.month}-{fmtI64 2 d.day}"

/-- **`utc_date` prints the date of the day**, for every timestamp of sixty-four bits. -/
theorem utcDate_eq {t : Int} (hmin : -9223372036854775808 ≤ t) (hmax : t ≤ 9223372036854775807) :
    utcDate t = some (printedDate (Date.ofDays (t / 86400))) := by
  unfold utcDate
  rw [Checked.i64_bind (by omega)]
  have hdoe : 0 ≤ (t / 86400 + 719468) % 146097 ∧ (t / 86400 + 719468) % 146097 < 146097 := by omega
  obtain ⟨yoe, d, hread, hyoe0, hyoe1, hyear, hnumber⟩ :=
    yearMonthDay_spec ((t / 86400 + 719468) / 146097) hdoe.1 hdoe.2
  have hdate : d = Date.ofDays (t / 86400) := Date.eq_ofDays (by omega)
  simp only [hread, Option.bind_eq_bind, Option.bind_some]
  rw [Checked.i64_of_bounds (by omega), Option.bind_some, Checked.i64_of_bounds (by omega),
    Option.bind_some, Checked.i64_of_bounds (by split_ifs <;> omega), Option.bind_some, ← hdate,
    printedDate, hyear, mul_comm (400 : Int)]
  rfl

/-- The time of day, with the seconds since midnight. -/
def printedTime (s : Nat) : String :=
  s!"T{fmtU64 2 (s / 3600)}:{fmtU64 2 (s % 3600 / 60)}:{fmtU64 2 (s % 60)}Z"

/-- **`rfc3339_utc` prints the same date, and the time behind it.** -/
theorem rfc3339Utc_eq {t : SystemTime} (hmin : 0 ≤ t.secs) (hmax : t.secs ≤ 9223372036854775807) :
    rfc3339Utc t = some (printedDate (Date.ofDays (t.secs / 86400)) ++
      printedTime (t.secs % 86400).toNat) := by
  have hsecs : (t.asSecs : Int) = t.secs := by
    rw [SystemTime.asSecs, if_pos hmin, Int.toNat_of_nonneg hmin]
  have hrem : (t.secs % 86400).toNat = t.asSecs % 86400 := by omega
  have hminute : t.asSecs % 86400 % 3600 / 60 = t.asSecs % 86400 / 60 % 60 := by omega
  unfold rfc3339Utc
  simp only [hsecs]
  rw [Checked.i64_bind (by omega), if_pos (by omega), Checked.i64_bind (by omega)]
  have hdoe : 0 ≤ (t.secs / 86400 + 719468) % 146097 ∧
      (t.secs / 86400 + 719468) % 146097 < 146097 := by omega
  have hera : (t.secs / 86400 + 719468).tdiv 146097 = (t.secs / 86400 + 719468) / 146097 :=
    Int.tdiv_eq_ediv_of_nonneg (by omega)
  have hrest : t.secs / 86400 + 719468 - (t.secs / 86400 + 719468) / 146097 * 146097 =
      (t.secs / 86400 + 719468) % 146097 := by omega
  obtain ⟨yoe, d, hread, hyoe0, hyoe1, hyear, hnumber⟩ :=
    yearMonthDay_spec ((t.secs / 86400 + 719468) / 146097) hdoe.1 hdoe.2
  have hdate : d = Date.ofDays (t.secs / 86400) := Date.eq_ofDays (by omega)
  have hmarch : (if d.month ≤ 2 then yoe + (t.secs / 86400 + 719468) / 146097 * 400 + 1 else
      yoe + (t.secs / 86400 + 719468) / 146097 * 400) = d.year := by
    split_ifs at hyear ⊢ <;> omega
  rw [hera, Checked.i64_bind (by omega), hrest, Checked.i64_bind (by omega), hread]
  simp only [Option.bind_eq_bind, Option.bind_some]
  rw [Checked.i64_of_bounds (by omega), Option.bind_some, Checked.i64_of_bounds (by omega),
    Option.bind_some, hmarch, Checked.i64_of_bounds (by split_ifs at hyear <;> omega),
    Option.bind_some, ← hdate, printedDate, printedTime, hrem, hminute]
  rfl

/-! ## The text of a date -/

/-- A date, the year with at least four digits. -/
def dateText (d : Date) : String :=
  s!"{fmtU64 4 d.year.toNat}-{fmtU64 2 d.month.toNat}-{fmtU64 2 d.day.toNat}"

theorem fmtI64_of_nonneg {n : Int} (h : 0 ≤ n) (width : Nat) :
    fmtI64 width n = fmtU64 width n.toNat := by
  have habs : n.natAbs = n.toNat := by omega
  rw [fmtI64, if_neg (by omega), habs]
  rfl

/-- From the year 0 on no sign is printed. -/
theorem printedDate_eq_dateText {d : Date} (h : 0 ≤ d.year) : printedDate d = dateText d := by
  have hmonth := d.month_pos
  have hday := d.day_pos
  rw [printedDate, dateText, fmtI64_of_nonneg h, fmtI64_of_nonneg (by omega),
    fmtI64_of_nonneg (by omega)]

theorem mem_fmtU64 {width n : Nat} {c : Char} (hc : c ∈ (fmtU64 width n).toList) :
    (StdAddr.toDigit 10 c).isSome = true := by
  rw [fmtU64, Text.zeroPad, String.toList_ofList, List.leftpad, List.mem_append] at hc
  rcases hc with hzero | hdigit
  · rw [List.eq_of_mem_replicate hzero]
    rfl
  · exact StdAddr.isSome_toDigit_of_mem (by decide) (by decide) hdigit

/-- Leading zeros do not change the value. -/
theorem digitsValue_fmtU64 (width n : Nat) :
    StdAddr.digitsValue 10 (fmtU64 width n).toList = n := by
  have hzeros (k : Nat) (ds : List Char) : StdAddr.digitsValue 10 (List.replicate k '0' ++ ds) =
      StdAddr.digitsValue 10 ds := by
    induction k with
    | zero => rfl
    | succ k ih => exact ih
  rw [fmtU64, Text.zeroPad, String.toList_ofList, List.leftpad, hzeros,
    StdAddr.digitsValue_toDigits (by decide) (by decide)]

theorem splitOn_dateText (d : Date) : (dateText d).toList.splitOn '-' =
    [(fmtU64 4 d.year.toNat).toList, (fmtU64 2 d.month.toNat).toList,
      (fmtU64 2 d.day.toNat).toList] := by
  have hhyphen (width n : Nat) : '-' ∉ (fmtU64 width n).toList := fun hmem =>
    absurd (mem_fmtU64 hmem) (by decide)
  have htext : (dateText d).toList = (fmtU64 4 d.year.toNat).toList ++ '-' ::
      ((fmtU64 2 d.month.toNat).toList ++ '-' :: (fmtU64 2 d.day.toNat).toList) := by
    simp only [dateText, String.toList_append, List.append_assoc]
    rfl
  rw [htext, List.splitOn_append_cons_self_of_not_mem (hhyphen _ _),
    List.splitOn_append_cons_self_of_not_mem (hhyphen _ _), List.splitOn_eq_singleton (hhyphen _ _)]

/-- Different dates have different texts. -/
theorem dateText_inj {d e : Date} (hd : 0 ≤ d.year) (he : 0 ≤ e.year)
    (h : dateText d = dateText e) : d = e := by
  have hsplit : (dateText d).toList.splitOn '-' = (dateText e).toList.splitOn '-' := by rw [h]
  rw [splitOn_dateText, splitOn_dateText] at hsplit
  have hvalues := congrArg (List.map (StdAddr.digitsValue 10)) hsplit
  simp only [List.map_cons, List.map_nil, digitsValue_fmtU64, List.cons.injEq, and_true] at hvalues
  have hd1 := d.month_pos
  have hd2 := d.day_pos
  have he1 := e.month_pos
  have he2 := e.day_pos
  exact Date.ext (by omega) (by omega) (by omega)

/-! ## Dates and times -/

/-- The first second of the year 1. -/
def startOfYearOne : Int := -62135596800

theorem ofDays_startOfYearOne :
    Date.ofDays (startOfYearOne / 86400) = ⟨1, 1, 1, by decide, by decide, by decide, by decide⟩ :=
  (Date.eq_ofDays rfl).symm

theorem year_pos {t : Int} (h : startOfYearOne ≤ t) : 1 ≤ (Date.ofDays (t / 86400)).year := by
  have hle : Date.ofDays (startOfYearOne / 86400) ≤ Date.ofDays (t / 86400) :=
    Date.ofDays_le_ofDays (Int.ediv_le_ediv (by decide) h)
  rw [ofDays_startOfYearOne] at hle
  rcases hle.lt_or_eq with hlt | heq
  · rcases Date.lt_iff.mp hlt with hyear | ⟨hyear, -⟩
    · exact hyear.le
    · exact hyear.le
  · rw [← heq]

/-- **Both functions print the date of the calendar**, from the start of the year 1 on and as far as
timestamps go, one also the time of day.  Days in a row have dates in a row, and different days
different texts. -/
theorem prints_calendar_date {t : Int} (hmin : startOfYearOne ≤ t)
    (hmax : t ≤ 9223372036854775807) :
    utcDate t = some (dateText (Date.ofDays (t / 86400))) ∧
    (0 ≤ t → ∀ nanos, rfc3339Utc ⟨t, nanos⟩ =
      some (dateText (Date.ofDays (t / 86400)) ++ printedTime (t % 86400).toNat)) ∧
    Date.ofDays (t / 86400 + 1) = (Date.ofDays (t / 86400)).next ∧
    Date.ofDays (t / 86400) ⋖ Date.ofDays (t / 86400 + 1) ∧
    ∀ t', startOfYearOne ≤ t' → t' ≤ 9223372036854775807 →
      (utcDate t' = utcDate t ↔ t' / 86400 = t / 86400) := by
  have hprint {t : Int} (hmin : startOfYearOne ≤ t) (hmax : t ≤ 9223372036854775807) :
      utcDate t = some (dateText (Date.ofDays (t / 86400))) := by
    have hyear := year_pos hmin
    rw [startOfYearOne] at hmin
    rw [utcDate_eq (by omega) hmax, printedDate_eq_dateText (by omega)]
  refine ⟨hprint hmin hmax, fun hpos nanos => ?_, Date.ofDays_succ _, Date.ofDays_covBy_succ _,
    fun t' hmin' hmax' => ?_⟩
  · have hyear : 0 ≤ (Date.ofDays (t / 86400)).year := Int.le_of_lt (year_pos hmin)
    rw [rfc3339Utc_eq hpos hmax, printedDate_eq_dateText hyear]
  · have hyear := year_pos hmin
    have hyear' := year_pos hmin'
    rw [hprint hmin hmax, hprint hmin' hmax', Option.some_inj]
    constructor
    · intro htext
      exact Date.ofDays_inj (dateText_inj (by omega) (by omega) htext)
    · intro hday
      rw [hday]

theorem prints_calendar_date_leap_day :
    utcDate 951782400 = some (dateText (Date.ofDays 11016)) ∧
      rfc3339Utc ⟨951782400, 0⟩ = some (dateText (Date.ofDays 11016) ++ printedTime 0) ∧
      Date.ofDays 11017 = (Date.ofDays 11016).next ∧ Date.ofDays 11016 ⋖ Date.ofDays 11017 := by
  obtain ⟨hdate, htime, hnext, hcover, -⟩ :=
    prints_calendar_date (t := 951782400) (by decide) (by decide)
  exact ⟨hdate, htime (by decide) 0, hnext, hcover⟩

end Timestamp

end Flannel
