import Vitess.Datetime.Time
import Vitess.Go.Int64

/-!
# Adding an interval

`Interval` and `DateTime.addInterval` of `go/mysql/datetime`, the arithmetic of
`DATE_ADD` and `DATE_SUB`. The unit of an interval is a set of parts, the bits
of an `IntervalType`, and `addInterval` takes the first of four branches that
applies to it:

* time parts: the date-time and the interval become `time.Duration`s (`int64`
  nanoseconds that wrap), the sum is split into days and a time of day, and the
  days are added to the day number of the first of the month; a day number
  outside `0..maxDay` is reported as out of range;
* days: the days are added to the day number of the date, with no check;
* months: the months are added to `year*12 + month`, a result outside
  `0..119999` is out of range, and a day past the end of the new month is moved
  back to its last day;
* years: only an interval of more than 10000 years is out of range.

The day branch never reports a failure: from `9999-12-31` on it reads the day
numbers of the year 10000 as dates, and below `366` it returns the zero date
(`addInterval_day_unchecked`). Within the calendar, adding `-i` days undoes
adding `i` (`addInterval_day_neg`).
-/

namespace Vitess.Datetime

open Go

/-- `IntervalType`: the parts of an interval, as the bits of a `uint8`. -/
structure IntervalType where
  bits : UInt8
  deriving DecidableEq, Repr

/-- `IntervalMicrosecond`. -/
def intervalMicrosecond : IntervalType := ⟨(1 : UInt8) <<< 0⟩

/-- `IntervalSecond`. -/
def intervalSecond : IntervalType := ⟨(1 : UInt8) <<< 1⟩

/-- `IntervalMinute`. -/
def intervalMinute : IntervalType := ⟨(1 : UInt8) <<< 2⟩

/-- `IntervalHour`. -/
def intervalHour : IntervalType := ⟨(1 : UInt8) <<< 3⟩

/-- `IntervalDay`. -/
def intervalDay : IntervalType := ⟨(1 : UInt8) <<< 4⟩

/-- `IntervalMonth`. -/
def intervalMonth : IntervalType := ⟨(1 : UInt8) <<< 5⟩

/-- `IntervalYear`. -/
def intervalYear : IntervalType := ⟨(1 : UInt8) <<< 6⟩

/-- `HasTimeParts`. -/
def IntervalType.hasTimeParts (itv : IntervalType) : Bool :=
  itv.bits &&& (intervalHour.bits ||| intervalMinute.bits ||| intervalSecond.bits |||
    intervalMicrosecond.bits) ≠ 0

/-- `HasDayParts`. -/
def IntervalType.hasDayParts (itv : IntervalType) : Bool :=
  itv.bits &&& intervalDay.bits ≠ 0

/-- `HasMonthParts`. -/
def IntervalType.hasMonthParts (itv : IntervalType) : Bool :=
  itv.bits &&& intervalMonth.bits ≠ 0

/-- `Interval`: the fields of its `timeparts` that adding it reads, and its unit. -/
structure Interval where
  year : ℤ
  month : ℤ
  day : ℤ
  hour : ℤ
  min : ℤ
  sec : ℤ
  nsec : ℤ
  prec : UInt8
  unit : IntervalType
  deriving DecidableEq, Repr

/-- `maxDay`: the day number of `9999-12-31`. -/
def maxDay : ℤ := 3652424

/-- `Interval.inRange`; Go's `/` truncates toward zero. -/
def Interval.inRange (itv : Interval) : Bool :=
  !(itv.day > maxDay) && !(itv.hour.tdiv 24 > maxDay) && !((itv.min.tdiv 24).tdiv 60 > maxDay) &&
    !(((itv.sec.tdiv 24).tdiv 60).tdiv 60 > maxDay)

/-- `Interval.precision(stradd)`. -/
def Interval.precision (itv : Interval) (stradd : Bool) : UInt8 :=
  if stradd then (if itv.nsec ≠ 0 then 6 else 0) else itv.prec

/-! ## Durations -/

/-- `time.Second`, in nanoseconds. -/
def durationSecond : ℤ := 1000000000

/-- `time.Minute`. -/
def durationMinute : ℤ := 60 * durationSecond

/-- `time.Hour`. -/
def durationHour : ℤ := 60 * durationMinute

/-- `durationPerDay`. -/
def durationPerDay : ℤ := 24 * durationHour

/-- `timeparts.toDuration`. Every product and sum wraps in `int64`, which is the
exact sum wrapped once. -/
def Interval.toDuration (itv : Interval) : ℤ :=
  wrapInt64 (itv.day * durationPerDay + itv.hour * durationHour + itv.min * durationMinute +
    itv.sec * durationSecond + itv.nsec)

/-- `Time.toDuration`: from the raw `hour` field, sign bit included. -/
def Time.toDuration (t : Time) : ℤ :=
  let dur := t.hour.toNat * durationHour + t.minute.toNat * durationMinute +
    t.second.toNat * durationSecond + t.nanosecond.toNat
  if t.Neg then -dur else dur

/-- `DateTime.toDuration`: the time and the days of the month before the date. -/
def DateTime.toDuration (dt : DateTime) : ℤ :=
  let dur := dt.Time.toDuration
  if !dt.Date.IsZero then dur + ((dt.Date.day.toNat : ℤ) - 1) * durationPerDay else dur

/-- `daysBefore`. -/
def daysBefore : List ℤ :=
  [0, 31, 59, 90, 120, 151, 181, 212, 243, 273, 304, 334, 365]

/-- `daysIn(m, year)`; `none` is the panic of an index outside `daysBefore`. -/
def daysIn (m year : ℤ) : Option ℤ :=
  if m = 2 ∧ isLeap year then some 29
  else do
    let after ← (index daysBefore m).toOption
    let before ← (index daysBefore (m - 1)).toOption
    return after - before

/-- The day number of a date's fields, as `MysqlDayNumber` reads them. -/
def Date.dayNumber (d : Date) : ℤ :=
  mysqlDayNumber d.year.toNat d.month.toNat d.day.toNat

/-! ## `addInterval` -/

/-- The time branch of `addInterval`. -/
def DateTime.addTimeParts (dt : DateTime) (itv : Interval) : Option (DateTime × Bool) :=
  if !itv.inRange then some (dt, false)
  else
    let dur := wrapInt64 (dt.toDuration + itv.toDuration)
    -- a date keeps the whole days apart, and the time of day nonnegative
    let (days, dur) :=
      if !dt.Date.IsZero then
        let days := dur.tdiv durationPerDay
        let dur := dur - days * durationPerDay
        if dur < 0 then (days - 1, dur + durationPerDay) else (days, dur)
      else (0, dur)
    let dt := { dt with
      Time := ⟨UInt16.ofInt (dur.tdiv durationHour),
        UInt8.ofInt ((dur.tmod durationHour).tdiv durationMinute),
        UInt8.ofInt ((dur.tmod durationMinute).tdiv durationSecond),
        UInt32.ofInt (dur.tmod durationSecond)⟩ }
    let daynum := mysqlDayNumber dt.Date.year.toNat dt.Date.month.toNat 1 + days
    if daynum < 0 ∨ daynum > maxDay then some (dt, false)
    else do
      let (year, month, day) ← mysqlDateFromDayNumber daynum
      return ({ dt with Date := ⟨year, month, day⟩ }, true)

/-- The month branch of `addInterval`: a day past the end of the new month is
moved back to its last day. -/
def DateTime.addMonthParts (dt : DateTime) (itv : Interval) : Option (DateTime × Bool) :=
  let months := wrapInt64 (dt.Date.year.toNat * 12 + itv.year * 12 +
    ((dt.Date.month.toNat : ℤ) - 1) + itv.month)
  if months < 0 ∨ months ≥ 120000 then some (dt, false)
  else do
    let year := months.tdiv 12
    let month := months.tmod 12 + 1
    let dt := { dt with Date := { dt.Date with year := UInt16.ofInt year, month := UInt8.ofInt month } }
    let dim ← daysIn month year
    if dt.Date.day.toNat > dim then return ({ dt with Date := { dt.Date with day := UInt8.ofInt dim } }, true)
    else return (dt, true)

/-- The year branch of `addInterval`: February 29 of a year that is not a leap
year is moved back to February 28. -/
def DateTime.addYears (dt : DateTime) (itv : Interval) : DateTime × Bool :=
  if itv.year > 10000 then (dt, false)
  else
    let year := wrapInt64 (dt.Date.year.toNat + itv.year)
    let dt := { dt with Date := { dt.Date with year := UInt16.ofInt year } }
    if dt.Date.month = 2 ∧ dt.Date.day = 29 ∧ !isLeap year then
      ({ dt with Date := { dt.Date with day := 28 } }, true)
    else (dt, true)

/-- `DateTime.addInterval`: the date-time after the interval and whether it is in
range; `none` is a panic, `unexpected IntervalType` among others. -/
def DateTime.addInterval (dt : DateTime) (itv : Interval) : Option (DateTime × Bool) :=
  if itv.unit.hasTimeParts then dt.addTimeParts itv
  else if itv.unit.hasDayParts then do
    let daynum := wrapInt64 (dt.Date.dayNumber + itv.day)
    let (year, month, day) ← mysqlDateFromDayNumber daynum
    return ({ dt with Date := ⟨year, month, day⟩ }, true)
  else if itv.unit.hasMonthParts then dt.addMonthParts itv
  else if itv.unit = intervalYear then some (dt.addYears itv)
  else none

/-- `Date.AddInterval`. -/
def Date.addInterval (d : Date) (itv : Interval) : Option (Date × Bool) :=
  (DateTime.addInterval ⟨d, ⟨0, 0, 0, 0⟩⟩ itv).map fun (dt, ok) => (dt.Date, ok)

/-- `Time.AddInterval(itv, stradd)`. -/
def Time.addInterval (t : Time) (itv : Interval) (stradd : Bool) : Option (Time × UInt8 × Bool) :=
  (DateTime.addInterval ⟨⟨0, 0, 0⟩, t⟩ itv).map fun (dt, ok) => (dt.Time, itv.precision stradd, ok)

/-- `DateTime.AddInterval(itv, prec, stradd)`. -/
def DateTime.addIntervalPrec (dt : DateTime) (itv : Interval) (prec : UInt8) (stradd : Bool) :
    Option (DateTime × UInt8 × Bool) :=
  (dt.addInterval itv).map fun (dt, ok) => (dt, max prec (itv.precision stradd), ok)

/-! ## Adding days -/

theorem hasTimeParts_day : intervalDay.hasTimeParts = false := by
  decide

theorem hasDayParts_day : intervalDay.hasDayParts = true := by
  decide

/-- The day branch reads the day number plus the days back as a date, whatever
it is. -/
theorem addInterval_of_day (dt : DateTime) {itv : Interval} (dayUnit : itv.unit = intervalDay)
    (fits : InInt64 (dt.Date.dayNumber + itv.day)) :
    dt.addInterval itv = (mysqlDateFromDayNumber (dt.Date.dayNumber + itv.day)).map
      fun (year, month, day) => ({ dt with Date := ⟨year, month, day⟩ }, true) := by
  unfold DateTime.addInterval
  rw [dayUnit, hasTimeParts_day, hasDayParts_day, wrapInt64_of_inInt64 fits]
  simp only [Bool.false_eq_true, if_false, if_true, bind, Option.bind]
  cases mysqlDateFromDayNumber (dt.Date.dayNumber + itv.day) <;> rfl

/-- Adding days never reports a failure: a day number past `9999-12-31`, up to
`3652499`, is read as a day of the year 10000, and one below `366` as the zero
date, both in range. -/
theorem addInterval_day_unchecked {dt : DateTime} {itv : Interval}
    (dayUnit : itv.unit = intervalDay) :
    (3652424 < dt.Date.dayNumber + itv.day → dt.Date.dayNumber + itv.day ≤ 3652499 →
      ∃ result, dt.addInterval itv = some (result, true) ∧ result.Date.year = 10000) ∧
    (InInt64 (dt.Date.dayNumber + itv.day) → dt.Date.dayNumber + itv.day ≤ 365 →
      dt.addInterval itv = some ({ dt with Date := ⟨0, 0, 0⟩ }, true)) := by
  constructor
  · intro past below
    obtain ⟨year, month, day, found, -, -, atMost, common, -⟩ :=
      mysqlDayNumber_mysqlDateFromDayNumber (by omega) below
    have tenThousand : year = 10000 := by
      have : ¬ year ≤ 9999 := fun early => by have := common.mp early; omega
      omega
    rw [addInterval_of_day dt dayUnit (by unfold InInt64; omega), found, tenThousand]
    exact ⟨_, rfl, show UInt16.ofInt 10000 = 10000 by decide⟩
  · intro fits early
    rw [addInterval_of_day dt dayUnit fits]
    unfold mysqlDateFromDayNumber
    rw [if_pos (Or.inl early)]
    rfl

theorem addInterval_day_unchecked_last_day :
    ∃ result, (⟨⟨9999, 12, 31⟩, ⟨0, 0, 0, 0⟩⟩ : DateTime).addInterval
        ⟨0, 0, 1, 0, 0, 0, 0, 0, intervalDay⟩ = some (result, true) ∧ result.Date.year = 10000 :=
  (addInterval_day_unchecked rfl).1 (by decide) (by decide)

/-- Within the calendar, adding `-i` days undoes adding `i` days. -/
theorem addInterval_day_neg {dt : DateTime} {itv : Interval} (dayUnit : itv.unit = intervalDay)
    (valid : ValidDate dt.Date.year.toNat dt.Date.month.toNat dt.Date.day.toNat)
    (low : 366 ≤ dt.Date.dayNumber + itv.day) (high : dt.Date.dayNumber + itv.day ≤ maxDay) :
    ∃ result, dt.addInterval itv = some (result, true) ∧
      result.addInterval { itv with day := -itv.day } = some (dt, true) := by
  unfold maxDay at high
  obtain ⟨year, month, day, found, calendar, positive, -, common, back⟩ :=
    mysqlDayNumber_mysqlDateFromDayNumber low (by omega)
  have common' : year ≤ 9999 := common.mpr high
  obtain ⟨january, december, first, last⟩ := calendar
  have short := daycount_getD_le year (month - 1).toNat
  -- the fields of the date found read back as its day number
  have foundDay : Date.dayNumber ⟨UInt16.ofInt year, UInt8.ofInt month, UInt8.ofInt day⟩ =
      dt.Date.dayNumber + itv.day := by
    unfold Date.dayNumber
    rw [toNat_ofInt16 (by omega) (by omega), toNat_ofInt8 (by omega) (by omega),
      toNat_ofInt8 (by omega) (by omega)]
    exact back
  have original := mysqlDateFromDayNumber_mysqlDayNumber valid
  have originalDay : 366 ≤ dt.Date.dayNumber ∧ dt.Date.dayNumber ≤ 3652424 :=
    (mysqlDayNumber_bounds valid).2.2
  have negUnit : ({ itv with day := -itv.day } : Interval).unit = intervalDay := dayUnit
  have fitsBack : InInt64
      ((⟨UInt16.ofInt year, UInt8.ofInt month, UInt8.ofInt day⟩ : Date).dayNumber + -itv.day) := by
    rw [foundDay]
    unfold InInt64
    omega
  refine ⟨{ dt with Date := ⟨UInt16.ofInt year, UInt8.ofInt month, UInt8.ofInt day⟩ }, ?_, ?_⟩
  · rw [addInterval_of_day dt dayUnit (by unfold InInt64; omega), found]
    rfl
  rw [addInterval_of_day { dt with Date := ⟨UInt16.ofInt year, UInt8.ofInt month, UInt8.ofInt day⟩ }
    negUnit fitsBack]
  dsimp only
  rw [foundDay, show dt.Date.dayNumber + itv.day + -itv.day = dt.Date.dayNumber by omega,
    Date.dayNumber, original]
  simp only [ofInt16_toNat, ofInt8_toNat, Option.map_some]

end Vitess.Datetime
