import Vitess.Data.Calendar

/-!
# MySQL day numbers

`MysqlDayNumber` and `mysqlDateFromDayNumber` of `go/mysql/datetime/mydate.go`,
the pair through which `DATE_ADD` and `DATE_SUB` add days. Both are integer
formulas taken from MySQL: the day number counts the days of the months before
with `(month*4+23)/10` and the leap days the centuries skip with
`((year/100+1)*3)/4`, and the inverse estimates the year as `daynr*100/36525`
and corrects the estimate once.

The day number of a date is its proleptic Gregorian ordinal plus 365
(`mysqlDayNumber_eq`). Up to `3652499` the estimate is the year or the one
before (`yearEstimate_bounds`), so the one correction finds the year
(`mysqlDateFromDayNumber_of_between`) and the two functions are inverse
(`mysqlDateFromDayNumber_mysqlDayNumber`, `mysqlDayNumber_mysqlDateFromDayNumber`).
`mysqlDateFromDayNumber` accepts day numbers up to `3652499`, but those from
`3652425` on are days of the year 10000.
-/

namespace Vitess.Datetime

/-- `Date`. -/
structure Date where
  year : UInt16
  month : UInt8
  day : UInt8
  deriving DecidableEq, Repr

/-- `daysInMonth`. -/
def daysInMonth : List ℤ :=
  [31, 28, 31, 30, 31, 30, 31, 31, 30, 31, 30, 31]

/-- `daysInMonthLeap`. -/
def daysInMonthLeap : List ℤ :=
  [31, 29, 31, 30, 31, 30, 31, 31, 30, 31, 30, 31]

/-- `isLeap`; Go's `%` truncates toward zero. -/
def isLeap (year : ℤ) : Bool :=
  year.tmod 4 = 0 && (year.tmod 100 ≠ 0 || year.tmod 400 = 0) && year ≠ 0

/-- `daysInYear`. -/
def daysInYear (year : ℤ) : ℤ :=
  if isLeap year then 366 else 365

/-- The month lengths `mysqlDateFromDayNumber` scans for `year`, its `daycount`. -/
def daycount (year : ℤ) : List ℤ :=
  if isLeap year then daysInMonthLeap else daysInMonth

/-- `MysqlDayNumber`; Go's `/` truncates toward zero. -/
def mysqlDayNumber (year month day : ℤ) : ℤ :=
  if year = 0 ∧ month = 0 then 0
  else
    let days := 365 * year + 31 * (month - 1) + day
    -- January and February count the leap days of the year before
    let (year, days) :=
      if month = 1 ∨ month = 2 then (year - 1, days)
      else (year, days - (month * 4 + 23).tdiv 10)
    let leapAdjust := ((year.tdiv 100 + 1) * 3).tdiv 4
    days + year.tdiv 4 - leapAdjust

/-- `mysqlDateFromDayNumber`; `none` is its panic `unreachable: yday is too large?`,
and the loop over the months is `Calendar.locate`. -/
def mysqlDateFromDayNumber (daynr : ℤ) : Option (UInt16 × UInt8 × UInt8) :=
  if daynr ≤ 365 ∨ daynr ≥ 3652500 then some (0, 0, 0)
  else
    let year := (daynr * 100).tdiv 36525
    let leapAdjust := (((year - 1).tdiv 100 + 1) * 3).tdiv 4
    let yday := (daynr - year * 365) - (year - 1).tdiv 4 + leapAdjust
    let (year, yday) :=
      if yday > daysInYear year then (year + 1, yday - daysInYear year) else (year, yday)
    (Calendar.locate (daycount year) yday).map fun (month, yday) =>
      (UInt16.ofInt year, UInt8.ofInt (month + 1), UInt8.ofInt yday)

/-- `DateFromDayNumber`. -/
def dateFromDayNumber (daynr : ℤ) : Option Date :=
  (mysqlDateFromDayNumber daynr).map fun (year, month, day) => ⟨year, month, day⟩

/-- A day of a month of `year`, under `isLeap`. -/
def CalendarDate (year month day : ℤ) : Prop :=
  1 ≤ month ∧ month ≤ 12 ∧ 1 ≤ day ∧ day ≤ (daycount year).getD (month - 1).toNat 0

instance (year month day : ℤ) : Decidable (CalendarDate year month day) :=
  inferInstanceAs (Decidable (_ ∧ _))

/-- A valid date: a calendar date of the years `1..9999`. -/
def ValidDate (year month day : ℤ) : Prop :=
  1 ≤ year ∧ year ≤ 9999 ∧ CalendarDate year month day

instance (year month day : ℤ) : Decidable (ValidDate year month day) :=
  inferInstanceAs (Decidable (_ ∧ _))

/-! ## The calendar of the source -/

theorem isLeap_iff {year : ℤ} (positive : 1 ≤ year) :
    isLeap year = true ↔ Calendar.IsLeapYear year := by
  have nonneg : 0 ≤ year := by omega
  simp only [isLeap, Calendar.IsLeapYear, Int.tmod_eq_emod_of_nonneg nonneg, Bool.and_eq_true,
    decide_eq_true_eq, Bool.or_eq_true, ne_eq, decide_not, Bool.not_eq_eq_eq_not, Bool.not_true,
    decide_eq_false_iff_not]
  omega

theorem daysInYear_eq {year : ℤ} (positive : 1 ≤ year) :
    daysInYear year = Calendar.daysInYear year := by
  unfold daysInYear Calendar.daysInYear
  by_cases leap : Calendar.IsLeapYear year
  · rw [if_pos ((isLeap_iff positive).mpr leap), if_pos leap]
  · rw [if_neg (mt (isLeap_iff positive).mp leap), if_neg leap]

theorem daycount_sum (year : ℤ) : (daycount year).sum = daysInYear year := by
  unfold daycount daysInYear
  split <;> rfl

theorem daycount_length (year : ℤ) : (daycount year).length = 12 := by
  unfold daycount
  split <;> rfl

theorem daycount_nonneg (year : ℤ) : ∀ length ∈ daycount year, 0 ≤ length := by
  unfold daycount
  split <;> decide

/-- No month has more than 31 days, so the day of a calendar date fits a byte. -/
theorem daycount_getD_le (year : ℤ) (index : ℕ) : (daycount year).getD index 0 ≤ 31 := by
  have months : ∀ length ∈ daycount year, length ≤ 31 := by
    unfold daycount
    split <;> decide
  rw [List.getD_eq_getElem?_getD]
  cases found : (daycount year)[index]? with
  | none => decide
  | some length => exact months length (List.mem_of_getElem? found)

/-- The days of the months before `month`, from March on, as `MysqlDayNumber`
counts them in a common year. -/
theorem daysInMonth_take_sum {month : ℤ} (march : 3 ≤ month) (december : month ≤ 12) :
    (daysInMonth.take (month - 1).toNat).sum = 31 * (month - 1) - (month * 4 + 23) / 10 := by
  have table : ∀ k < 10, ((daysInMonth.take (k + 2)).sum : ℤ) =
      31 * ((k : ℤ) + 2) - (((k : ℤ) + 3) * 4 + 23) / 10 := by
    decide
  have := table (month - 3).toNat (by omega)
  rw [show (month - 3).toNat + 2 = (month - 1).toNat by omega,
    show ((month - 3).toNat : ℤ) = month - 3 by omega] at this
  rw [this]
  omega

/-- A leap year has one day more than a common year before every month from
March on. -/
theorem daysInMonthLeap_take_sum {k : ℕ} (inside : k ≤ 12) :
    (daysInMonthLeap.take k).sum = (daysInMonth.take k).sum + if 2 ≤ k then 1 else 0 := by
  have table : ∀ k < 13,
      (daysInMonthLeap.take k).sum = (daysInMonth.take k).sum + if 2 ≤ k then 1 else 0 := by
    decide
  exact table k (by omega)

/-- MySQL's count of the leap days the centuries skip, `((n/100+1)*3)/4`, is the
Gregorian one. -/
theorem leapAdjust_eq (n : ℤ) : ((n / 100 + 1) * 3) / 4 = n / 100 - n / 400 := by
  have centuries : n / 400 = n / 100 / 4 := by omega
  omega

/-- `MysqlDayNumber` of a date is the proleptic Gregorian ordinal plus 365. -/
theorem mysqlDayNumber_eq {year month day : ℤ} (positive : 1 ≤ year) (january : 1 ≤ month)
    (december : month ≤ 12) :
    mysqlDayNumber year month day =
      365 + Calendar.daysBeforeYear year + ((daycount year).take (month - 1).toNat).sum + day := by
  have before := Calendar.leapYearsUpTo_succ (year - 1)
  rw [sub_add_cancel] at before
  unfold mysqlDayNumber Calendar.daysBeforeYear
  rw [if_neg (by omega)]
  dsimp only
  by_cases early : month = 1 ∨ month = 2
  · -- the months before are those of any year
    have months : ((daycount year).take (month - 1).toNat).sum = 31 * (month - 1) := by
      rcases early with rfl | rfl <;> unfold daycount <;> split <;> rfl
    rw [if_pos early, months]
    simp (disch := omega) only [Int.tdiv_eq_ediv_of_nonneg]
    rw [leapAdjust_eq]
    unfold Calendar.leapYearsUpTo
    omega
  · have months : ((daycount year).take (month - 1).toNat).sum =
        31 * (month - 1) - (month * 4 + 23) / 10 + if isLeap year then 1 else 0 := by
      unfold daycount
      split
      · rw [daysInMonthLeap_take_sum (by omega), if_pos (by omega),
          daysInMonth_take_sum (by omega) december]
      · rw [daysInMonth_take_sum (by omega) december, add_zero]
    have leap : (if isLeap year then (1 : ℤ) else 0) =
        if Calendar.IsLeapYear year then 1 else 0 := by
      by_cases leap : Calendar.IsLeapYear year
      · rw [if_pos ((isLeap_iff positive).mpr leap), if_pos leap]
      · rw [if_neg (mt (isLeap_iff positive).mp leap), if_neg leap]
    rw [if_neg early, months, leap]
    simp (disch := omega) only [Int.tdiv_eq_ediv_of_nonneg]
    rw [leapAdjust_eq]
    unfold Calendar.leapYearsUpTo at before ⊢
    omega

/-! ## Reading a day number back -/

/-- The estimate `daynr*100/36525` of `mysqlDateFromDayNumber`: a year whose
start is before `daynr` and at most two years' days before it. -/
theorem yearEstimate_bounds {daynr : ℤ} (low : 366 ≤ daynr) (high : daynr ≤ 3652499) :
    let year := (daynr * 100).tdiv 36525
    1 ≤ year ∧ year ≤ 9999 ∧ 365 + Calendar.daysBeforeYear year < daynr ∧
      daynr ≤ 365 + Calendar.daysBeforeYear year + 730 := by
  intro year
  have estimate : year = daynr * 100 / 36525 := Int.tdiv_eq_ediv_of_nonneg (by omega)
  have centuries : (year - 1) / 400 ≤ (year - 1) / 100 := by omega
  unfold Calendar.daysBeforeYear Calendar.leapYearsUpTo
  omega

/-- The day of the year `mysqlDateFromDayNumber` computes from a year. -/
theorem yday_eq {year : ℤ} (daynr : ℤ) (positive : 1 ≤ year) :
    (daynr - year * 365) - (year - 1).tdiv 4 + (((year - 1).tdiv 100 + 1) * 3).tdiv 4 =
      daynr - (365 + Calendar.daysBeforeYear year) := by
  simp (disch := omega) only [Int.tdiv_eq_ediv_of_nonneg]
  rw [leapAdjust_eq]
  unfold Calendar.daysBeforeYear Calendar.leapYearsUpTo
  omega

/-- `mysqlDateFromDayNumber` finds the year of a day number up to `3652499` and
looks up the day of that year among its months. -/
theorem mysqlDateFromDayNumber_of_between {daynr year : ℤ} (low : 366 ≤ daynr)
    (high : daynr ≤ 3652499) (positive : 1 ≤ year)
    (after : 365 + Calendar.daysBeforeYear year < daynr)
    (within : daynr ≤ 365 + Calendar.daysBeforeYear (year + 1)) :
    mysqlDateFromDayNumber daynr =
      (Calendar.locate (daycount year) (daynr - 365 - Calendar.daysBeforeYear year)).map
        fun (month, day) => (UInt16.ofInt year, UInt8.ofInt (month + 1), UInt8.ofInt day) := by
  obtain ⟨one, _, start, short⟩ := yearEstimate_bounds low high
  obtain ⟨guess, estimate⟩ : ∃ guess, (daynr * 100).tdiv 36525 = guess := ⟨_, rfl⟩
  rw [estimate] at one start short
  have next := Calendar.daysBeforeYear_succ guess
  have twoYears : Calendar.daysBeforeYear (guess + 2) =
      Calendar.daysBeforeYear (guess + 1) + Calendar.daysInYear (guess + 1) := by
    rw [← Calendar.daysBeforeYear_succ, add_assoc]
    rfl
  have lengths := Calendar.daysInYear_pos guess
  have lengths' := Calendar.daysInYear_pos (guess + 1)
  -- the year is the estimate or the one after
  have notBefore : guess < year + 1 :=
    Calendar.daysBeforeYear_strictMono.lt_iff_lt.mp (by omega)
  have notAfter : year < guess + 2 :=
    Calendar.daysBeforeYear_strictMono.lt_iff_lt.mp (by omega)
  unfold mysqlDateFromDayNumber
  rw [if_neg (by omega)]
  dsimp only
  rw [estimate, yday_eq daynr one, daysInYear_eq one]
  rcases (show year = guess ∨ year = guess + 1 by omega) with rfl | rfl
  · rw [if_neg (by omega)]
    congr 2
    omega
  · rw [if_pos (by omega)]
    dsimp only
    congr 2
    omega

theorem daysBeforeYear_ten_thousand : Calendar.daysBeforeYear 10000 = 3652059 := by
  decide

/-- The day of the year of a calendar date, counted through the months before
it, is one of the days of its year. -/
theorem dayOfYear_bounds {year month day : ℤ} (positive : 1 ≤ year)
    (calendar : CalendarDate year month day) :
    1 ≤ ((daycount year).take (month - 1).toNat).sum + day ∧
      ((daycount year).take (month - 1).toNat).sum + day ≤ Calendar.daysInYear year := by
  obtain ⟨january, december, first, le⟩ := calendar
  have inside : (month - 1).toNat < (daycount year).length := by
    rw [daycount_length]
    omega
  rw [List.getD_eq_getElem?_getD, List.getElem?_eq_getElem inside, Option.getD_some] at le
  have upTo := List.sum_take_succ (daycount year) _ inside
  have whole : ((daycount year).take ((month - 1).toNat + 1)).sum ≤ (daycount year).sum := by
    conv_rhs => rw [← List.take_append_drop ((month - 1).toNat + 1) (daycount year)]
    rw [List.sum_append]
    have tail : 0 ≤ ((daycount year).drop ((month - 1).toNat + 1)).sum :=
      List.sum_nonneg fun l mem => daycount_nonneg year l (List.mem_of_mem_drop mem)
    omega
  have rest : 0 ≤ ((daycount year).take (month - 1).toNat).sum :=
    List.sum_nonneg fun l mem => daycount_nonneg year l (List.mem_of_mem_take mem)
  rw [daycount_sum, daysInYear_eq positive] at whole
  omega

/-- The day number of a valid date falls in its year, between those of
`0001-01-01` and `9999-12-31`. -/
theorem mysqlDayNumber_bounds {year month day : ℤ} (valid : ValidDate year month day) :
    365 + Calendar.daysBeforeYear year < mysqlDayNumber year month day ∧
      mysqlDayNumber year month day ≤ 365 + Calendar.daysBeforeYear (year + 1) ∧
      366 ≤ mysqlDayNumber year month day ∧ mysqlDayNumber year month day ≤ 3652424 := by
  obtain ⟨positive, last, calendar⟩ := valid
  obtain ⟨first, inYear⟩ := dayOfYear_bounds positive calendar
  have next := Calendar.daysBeforeYear_succ year
  have start : 0 ≤ Calendar.daysBeforeYear year := by
    have := Calendar.daysBeforeYear_strictMono.monotone positive
    rwa [show Calendar.daysBeforeYear 1 = 0 by decide] at this
  have below : Calendar.daysBeforeYear (year + 1) ≤ 3652059 := by
    rw [← daysBeforeYear_ten_thousand]
    exact Calendar.daysBeforeYear_strictMono.monotone (by omega)
  rw [mysqlDayNumber_eq positive calendar.1 calendar.2.1]
  omega

/-- Every valid date comes back from its day number. -/
theorem mysqlDateFromDayNumber_mysqlDayNumber {year month day : ℤ}
    (valid : ValidDate year month day) :
    mysqlDateFromDayNumber (mysqlDayNumber year month day) =
      some (UInt16.ofInt year, UInt8.ofInt month, UInt8.ofInt day) := by
  obtain ⟨after, within, low, high⟩ := mysqlDayNumber_bounds valid
  obtain ⟨positive, -, january, december, first, le⟩ := valid
  have inside : (month - 1).toNat < (daycount year).length := by
    rw [daycount_length]
    omega
  rw [List.getD_eq_getElem?_getD, List.getElem?_eq_getElem inside, Option.getD_some] at le
  rw [mysqlDateFromDayNumber_of_between low (by omega) positive after within,
    mysqlDayNumber_eq positive january december,
    show 365 + Calendar.daysBeforeYear year + ((daycount year).take (month - 1).toNat).sum + day -
      365 - Calendar.daysBeforeYear year = ((daycount year).take (month - 1).toNat).sum + day by
      omega,
    Calendar.locate_take_sum_add (daycount_nonneg year) inside first le]
  simp only [Option.map_some, Option.some.injEq, Prod.mk.injEq, true_and, and_true]
  congr 1
  omega

/-- Every day number `mysqlDateFromDayNumber` reads as a date, up to `3652499`,
is the day number of a calendar date it returns; the year is `10000` from
`3652425` on. -/
theorem mysqlDayNumber_mysqlDateFromDayNumber {daynr : ℤ} (low : 366 ≤ daynr)
    (high : daynr ≤ 3652499) :
    ∃ year month day, mysqlDateFromDayNumber daynr =
        some (UInt16.ofInt year, UInt8.ofInt month, UInt8.ofInt day) ∧
      CalendarDate year month day ∧ 1 ≤ year ∧ year ≤ 10000 ∧ (year ≤ 9999 ↔ daynr ≤ 3652424) ∧
      mysqlDayNumber year month day = daynr := by
  obtain ⟨one, last, start, short⟩ := yearEstimate_bounds low high
  obtain ⟨guess, estimate⟩ : ∃ guess, (daynr * 100).tdiv 36525 = guess := ⟨_, rfl⟩
  rw [estimate] at one last start short
  -- the year of `daynr`: the estimate, or the one after when `daynr` is past its end
  obtain ⟨year, positive, upTo, after, within⟩ : ∃ year, 1 ≤ year ∧ year ≤ guess + 1 ∧
      365 + Calendar.daysBeforeYear year < daynr ∧
      daynr ≤ 365 + Calendar.daysBeforeYear (year + 1) := by
    by_cases inYear : daynr ≤ 365 + Calendar.daysBeforeYear (guess + 1)
    · exact ⟨guess, one, by omega, start, inYear⟩
    · have next := Calendar.daysBeforeYear_succ guess
      have twoYears := Calendar.daysBeforeYear_succ (guess + 1)
      have lengths := Calendar.daysInYear_pos guess
      have lengths' := Calendar.daysInYear_pos (guess + 1)
      exact ⟨guess + 1, by omega, le_refl _, by omega, by omega⟩
  -- the day of the year, among the months
  have dayOfYear : 0 < daynr - 365 - Calendar.daysBeforeYear year ∧
      daynr - 365 - Calendar.daysBeforeYear year ≤ (daycount year).sum := by
    have next := Calendar.daysBeforeYear_succ year
    rw [daycount_sum, daysInYear_eq positive]
    omega
  obtain ⟨⟨month, day⟩, located⟩ :=
    Option.isSome_iff_exists.mp (Calendar.locate_isSome dayOfYear.1 dayOfYear.2)
  obtain ⟨inside, le, sum, positiveDay⟩ := Calendar.locate_spec located
  have twelve : month < 12 := daycount_length year ▸ inside
  have index : ((month : ℤ) + 1 - 1).toNat = month := by omega
  refine ⟨year, month + 1, day, ?_, ?_, positive, by omega, ?_, ?_⟩
  · rw [mysqlDateFromDayNumber_of_between low high positive after within, located]
    rfl
  · refine ⟨by omega, by omega, positiveDay dayOfYear.1, ?_⟩
    rwa [index, List.getD_eq_getElem?_getD, List.getElem?_eq_getElem inside, Option.getD_some]
  · constructor
    · intro common
      have := Calendar.daysBeforeYear_strictMono.monotone (show year + 1 ≤ 10000 by omega)
      rw [daysBeforeYear_ten_thousand] at this
      omega
    · intro early
      by_contra late
      have := Calendar.daysBeforeYear_strictMono.monotone (show 10000 ≤ year by omega)
      rw [daysBeforeYear_ten_thousand] at this
      omega
  · rw [mysqlDayNumber_eq positive (by omega) (by omega), index]
    omega
/-- `MysqlDayNumber` and `mysqlDateFromDayNumber` are inverse: every valid date
comes back from its day number, and every day number from `366` to `3652499` is
the day number of the calendar date read from it, a date of the years
`1..10000`, of the year 10000 exactly from `3652425` on. -/
theorem mysqlDayNumber_inverse :
    (∀ year month day, ValidDate year month day →
      mysqlDateFromDayNumber (mysqlDayNumber year month day) =
        some (UInt16.ofInt year, UInt8.ofInt month, UInt8.ofInt day)) ∧
    (∀ daynr, 366 ≤ daynr → daynr ≤ 3652499 → ∃ year month day,
      mysqlDateFromDayNumber daynr = some (UInt16.ofInt year, UInt8.ofInt month, UInt8.ofInt day) ∧
      CalendarDate year month day ∧ 1 ≤ year ∧ year ≤ 10000 ∧ (year ≤ 9999 ↔ daynr ≤ 3652424) ∧
      mysqlDayNumber year month day = daynr) :=
  ⟨fun _ _ _ valid => mysqlDateFromDayNumber_mysqlDayNumber valid,
    fun _ low high => mysqlDayNumber_mysqlDateFromDayNumber low high⟩

theorem mysqlDayNumber_inverse_last_day :
    mysqlDateFromDayNumber (mysqlDayNumber 9999 12 31) =
      some (UInt16.ofInt 9999, UInt8.ofInt 12, UInt8.ofInt 31) :=
  mysqlDayNumber_inverse.1 9999 12 31 (by decide)

/-- The day after 9999-12-31 is read as 10000-01-01, which is not a valid date. -/
theorem mysqlDateFromDayNumber_year_ten_thousand :
    mysqlDayNumber 9999 12 31 = 3652424 ∧ mysqlDateFromDayNumber 3652425 = some (10000, 1, 1) ∧
      ¬ ValidDate 10000 1 1 := by
  decide

end Vitess.Datetime
