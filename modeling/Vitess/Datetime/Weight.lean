import Vitess.Datetime.Time
import Vitess.Data.SortKey
import Vitess.Key.Key
import Mathlib.Tactic.Linarith
import Mathlib.Tactic.Ring

/-!
# Comparing and weighing dates and times

`Date.Compare`, `Time.Compare`, `DateTime.Compare` and `DateTime.WeightString`
of `go/mysql/datetime/datetime.go`. The evaluator sorts and hashes `DATE`,
`DATETIME` and `TIME` values by their weight strings (`evalWeightString` in
`go/vt/vtgate/evalengine/weights.go`), so a weight string has to sort as
`Compare` orders.

`WeightString` packs `year*13+month` and the day above the hours, minutes and
seconds, and those above the microseconds, negates the packed number for a
negative time, flips its top bit and writes it big-endian. Within MySQL's
ranges nothing overflows its field, so the bytes are those of `weightKey`:
the packed number with the time's sign, plus `2 ^ 63` (`weightString_eq`).

What `Compare` means is the time as a signed number of nanoseconds
(`Time.compare_nonpos`); what the weight keeps of it is the time cut to the
microsecond (`Time.signedPacked_le_iff`). So for two values of a `DATE` or
`DATETIME` column, or two of a `TIME` column, the weight strings are in the
order of `Compare` and equal exactly when the values agree down to the
microsecond (`weightString_preserves_order`).
-/

namespace Vitess.Datetime

open Vitess.SortKey

/-! ## The source -/

/-- `Date.Compare`: the year, then the month, then the day. -/
def Date.compare (d d2 : Date) : ℤ :=
  compareThen d.year.toNat d2.year.toNat <| compareThen d.month.toNat d2.month.toNat <|
    compareThen d.day.toNat d2.day.toNat 0

/-- The comparisons `Time.Compare` makes once the signs agree: the hours, the
minutes, the seconds, then the nanoseconds. -/
def Time.compareFields (t t2 : Time) : ℤ :=
  compareThen t.Hour t2.Hour <| compareThen t.minute.toNat t2.minute.toNat <|
    compareThen t.second.toNat t2.second.toNat <|
      compareThen t.nanosecond.toNat t2.nanosecond.toNat 0

/-- `Time.Compare`. -/
def Time.compare (t t2 : Time) : ℤ :=
  if t.Neg ≠ t2.Neg then (if t.Neg then -1 else 1)
  -- both negative: the fields are compared the other way round
  else if t.Neg then t2.compareFields t
  else t.compareFields t2

/-- `DateTime.Compare`. A value with the zero date against one without goes
through `ToStdTime` at the current clock, `stdCompare` here. -/
def DateTime.compare (stdCompare : DateTime → DateTime → ℤ) (dt dt2 : DateTime) : ℤ :=
  let zerodate1 := dt.Date.IsZero
  let zerodate2 := dt2.Date.IsZero
  if zerodate1 && zerodate2 then dt.Time.compare dt2.Time
  else if zerodate1 || zerodate2 then stdCompare dt dt2
  else
    let cmp := dt.Date.compare dt2.Date
    if cmp ≠ 0 then cmp else dt.Time.compare dt2.Time

/-- The date's part of `DateTime.WeightString`, its `ymd`. -/
def Date.ymd (d : Date) : UInt64 :=
  UInt64.ofNat (d.year.toNat * 13 + d.month.toNat) <<< 5 ||| UInt64.ofNat d.day.toNat

/-- The time's part of `DateTime.WeightString`, its `hms`. -/
def Time.hms (t : Time) : UInt64 :=
  UInt64.ofNat t.Hour <<< 12 ||| UInt64.ofNat t.minute.toNat <<< 6 ||| UInt64.ofNat t.second.toNat

/-- `DateTime.WeightString`: the eight bytes of the packed value, appended to
`dst`. -/
def DateTime.weightString (dt : DateTime) (dst : List UInt8) : List UInt8 :=
  let raw := ((dt.Date.ymd <<< 17 ||| dt.Time.hms) <<< 24) +
    UInt64.ofNat (dt.Time.nanosecond.toNat / 1000)
  let raw := if dt.Time.Neg then -raw else raw
  let raw := raw ^^^ (1 : UInt64) <<< 63
  dst ++ encode 8 raw.toNat

/-! ## Column values -/

/-- Minutes and seconds below 60 and nanoseconds below a second. -/
def Time.InRange (t : Time) : Prop :=
  t.minute.toNat < 60 ∧ t.second.toNat < 60 ∧ t.nanosecond.toNat < 10 ^ 9

instance (t : Time) : Decidable t.InRange :=
  inferInstanceAs (Decidable (_ ∧ _))

/-- A value of a `DATE` or `DATETIME` column: a date other than the zero date
within MySQL's ranges (years up to 9999, months up to 12 and days up to 31, a
zero part allowed), and a non-negative time of the day. -/
def DateTime.IsDateValue (dt : DateTime) : Prop :=
  dt.Date.IsZero = false ∧ dt.Date.year.toNat ≤ 9999 ∧ dt.Date.month.toNat ≤ 12 ∧
    dt.Date.day.toNat ≤ 31 ∧ dt.Time.Neg = false ∧ dt.Time.Hour < 24 ∧ dt.Time.InRange

instance (dt : DateTime) : Decidable dt.IsDateValue :=
  inferInstanceAs (Decidable (_ ∧ _))

/-- A value of a `TIME` column: the zero date, at most 838 hours either way,
and not the negative zero. -/
def DateTime.IsTimeValue (dt : DateTime) : Prop :=
  dt.Date.IsZero = true ∧ dt.Time.Hour ≤ 838 ∧ dt.Time.InRange ∧
    ¬ (dt.Time.Neg = true ∧ dt.Time.IsZero = true)

instance (dt : DateTime) : Decidable dt.IsTimeValue :=
  inferInstanceAs (Decidable (_ ∧ _))

/-! ## What the comparison and the weight mean -/

/-- The time as a signed number of nanoseconds. -/
def Time.nanoseconds (t : Time) : ℤ :=
  let magnitude : ℕ :=
    ((t.Hour * 60 + t.minute.toNat) * 60 + t.second.toNat) * 10 ^ 9 + t.nanosecond.toNat
  if t.Neg then -(magnitude : ℤ) else magnitude

/-- The time cut to the microsecond, as a signed number of microseconds. -/
def Time.microseconds (t : Time) : ℤ :=
  let magnitude : ℕ :=
    ((t.Hour * 60 + t.minute.toNat) * 60 + t.second.toNat) * 10 ^ 6 + t.nanosecond.toNat / 1000
  if t.Neg then -(magnitude : ℤ) else magnitude

/-- The number `WeightString` packs for the date. -/
def Date.packed (d : Date) : ℕ :=
  (d.year.toNat * 13 + d.month.toNat) * 32 + d.day.toNat

/-- The number `WeightString` packs for the time, without its sign. -/
def Time.packed (t : Time) : ℕ :=
  ((t.Hour * 64 + t.minute.toNat) * 64 + t.second.toNat) * 2 ^ 24 + t.nanosecond.toNat / 1000

/-- `Time.packed` with the time's sign. -/
def Time.signedPacked (t : Time) : ℤ :=
  if t.Neg then -(t.packed : ℤ) else t.packed

/-- The number `WeightString` packs, before the sign. -/
def DateTime.packed (dt : DateTime) : ℕ :=
  dt.Date.packed * 2 ^ 41 + dt.Time.packed

/-- The weight as a number: `2 ^ 63` plus the packed number, or minus it for a
negative time. -/
def DateTime.weightKey (dt : DateTime) : ℕ :=
  if dt.Time.Neg then 2 ^ 63 - dt.packed else 2 ^ 63 + dt.packed

/-! ## The packed number -/

theorem Time.Hour_lt (t : Time) : t.Hour < 2 ^ 15 := by
  rw [Time.Hour_eq]
  exact Nat.mod_lt _ (by decide)

theorem toNat_ofNat_of_lt {n : ℕ} (h : n < 2 ^ 64) : (UInt64.ofNat n).toNat = n := by
  rw [UInt64.toNat_ofNat', Nat.mod_eq_of_lt h]

theorem toNat_ofNat_shiftLeft {n k : ℕ} {s : UInt64} (shift : s.toNat = k) (small : k < 64)
    (fits : n * 2 ^ k < 2 ^ 64) : (UInt64.ofNat n <<< s).toNat = n * 2 ^ k := by
  have below : n < 2 ^ 64 := lt_of_le_of_lt (Nat.le_mul_of_pos_right n (Nat.two_pow_pos _)) fits
  rw [toNat_shiftLeft_of_lt shift small (by rwa [toNat_ofNat_of_lt below]), toNat_ofNat_of_lt below]

theorem Date.ymd_toNat (d : Date) (day : d.day.toNat < 32) : d.ymd.toNat = d.packed := by
  have year := d.year.toNat_lt
  have month := d.month.toNat_lt
  have shifted : (UInt64.ofNat (d.year.toNat * 13 + d.month.toNat) <<< 5).toNat =
      (d.year.toNat * 13 + d.month.toNat) * 2 ^ 5 :=
    toNat_ofNat_shiftLeft rfl (by decide) (by omega)
  have days : (UInt64.ofNat d.day.toNat).toNat = d.day.toNat := toNat_ofNat_of_lt (by omega)
  rw [Date.ymd, toNat_or_of_dvd (i := 5) (by rw [shifted]; exact Dvd.intro_left _ rfl)
    (by rw [days]; exact day), shifted, days]
  rfl

theorem Time.hms_toNat (t : Time) (minute : t.minute.toNat < 64) (second : t.second.toNat < 64) :
    t.hms.toNat = (t.Hour * 64 + t.minute.toNat) * 64 + t.second.toNat := by
  have hour := t.Hour_lt
  have hours : (UInt64.ofNat t.Hour <<< 12).toNat = t.Hour * 2 ^ 12 :=
    toNat_ofNat_shiftLeft rfl (by decide) (by omega)
  have minutes : (UInt64.ofNat t.minute.toNat <<< 6).toNat = t.minute.toNat * 2 ^ 6 :=
    toNat_ofNat_shiftLeft rfl (by decide) (by omega)
  have seconds : (UInt64.ofNat t.second.toNat).toNat = t.second.toNat :=
    toNat_ofNat_of_lt (by omega)
  have hoursMinutes : (UInt64.ofNat t.Hour <<< 12 ||| UInt64.ofNat t.minute.toNat <<< 6).toNat =
      t.Hour * 2 ^ 12 + t.minute.toNat * 2 ^ 6 := by
    rw [toNat_or_of_dvd (i := 12) (by rw [hours]; exact Dvd.intro_left _ rfl)
      (by rw [minutes]; omega), hours, minutes]
  rw [Time.hms, toNat_or_of_dvd (i := 6) (by rw [hoursMinutes]; omega) (by rw [seconds]; omega),
    hoursMinutes, seconds]
  omega

/-- The date and the time of the day fit in the 39 bits above the microseconds. -/
theorem DateTime.dateTime_lt (dt : DateTime) (date : dt.Date.packed < 2 ^ 22)
    (minute : dt.Time.minute.toNat < 64) (second : dt.Time.second.toNat < 64)
    (aligned : dt.Time.Hour < 32 ∨ dt.Date.packed = 0) :
    dt.Date.packed * 2 ^ 17 + ((dt.Time.Hour * 64 + dt.Time.minute.toNat) * 64 +
      dt.Time.second.toNat) < 2 ^ 39 := by
  have hour := dt.Time.Hour_lt
  rcases aligned with small | zero
  · have dateBits : dt.Date.packed * 2 ^ 17 ≤ (2 ^ 22 - 1) * 2 ^ 17 :=
      Nat.mul_le_mul_right _ (by omega)
    omega
  · rw [zero]
    omega

theorem DateTime.packed_lt (dt : DateTime) (date : dt.Date.packed < 2 ^ 22)
    (minute : dt.Time.minute.toNat < 64) (second : dt.Time.second.toNat < 64)
    (aligned : dt.Time.Hour < 32 ∨ dt.Date.packed = 0) : dt.packed < 2 ^ 63 := by
  have fields := dt.dateTime_lt date minute second aligned
  have micro : dt.Time.nanosecond.toNat / 1000 < 2 ^ 24 := by
    have := dt.Time.nanosecond.toNat_lt
    omega
  have shifted : (dt.Date.packed * 2 ^ 17 + ((dt.Time.Hour * 64 + dt.Time.minute.toNat) * 64 +
      dt.Time.second.toNat)) * 2 ^ 24 ≤ (2 ^ 39 - 1) * 2 ^ 24 :=
    Nat.mul_le_mul_right _ (by omega)
  unfold DateTime.packed Time.packed
  linarith

theorem DateTime.weightString_eq (dt : DateTime) (dst : List UInt8) (date : dt.Date.packed < 2 ^ 22)
    (day : dt.Date.day.toNat < 32) (minute : dt.Time.minute.toNat < 64)
    (second : dt.Time.second.toNat < 64) (aligned : dt.Time.Hour < 32 ∨ dt.Date.packed = 0) :
    dt.weightString dst = dst ++ encode 8 dt.weightKey := by
  have ymd := dt.Date.ymd_toNat day
  have hms := dt.Time.hms_toNat minute second
  have fields := dt.dateTime_lt date minute second aligned
  have fits := dt.packed_lt date minute second aligned
  have micro : dt.Time.nanosecond.toNat / 1000 < 2 ^ 24 := by
    have := dt.Time.nanosecond.toNat_lt
    omega
  -- the date in the bits above the time of the day
  have dateBits : (dt.Date.ymd <<< 17).toNat = dt.Date.packed * 2 ^ 17 := by
    rw [← ymd]
    exact toNat_shiftLeft_of_lt rfl (by decide) (by linarith)
  have dateTime : (dt.Date.ymd <<< 17 ||| dt.Time.hms).toNat =
      dt.Date.packed * 2 ^ 17 + ((dt.Time.Hour * 64 + dt.Time.minute.toNat) * 64 +
        dt.Time.second.toNat) := by
    rw [UInt64.toNat_or, dateBits, hms]
    rcases aligned with small | zero
    · exact or_eq_add_of_lt (Dvd.intro_left _ rfl) (by omega)
    · simp [zero]
  have shifted : ((dt.Date.ymd <<< 17 ||| dt.Time.hms) <<< 24).toNat =
      (dt.Date.packed * 2 ^ 17 + ((dt.Time.Hour * 64 + dt.Time.minute.toNat) * 64 +
        dt.Time.second.toNat)) * 2 ^ 24 := by
    rw [← dateTime]
    exact toNat_shiftLeft_of_lt rfl (by decide) (by linarith)
  have raw : (((dt.Date.ymd <<< 17 ||| dt.Time.hms) <<< 24) +
      UInt64.ofNat (dt.Time.nanosecond.toNat / 1000)).toNat = dt.packed := by
    rw [UInt64.toNat_add, shifted, toNat_ofNat_of_lt (by omega), DateTime.packed, Time.packed]
    rw [Nat.mod_eq_of_lt (by linarith)]
    ring
  dsimp only [DateTime.weightString, DateTime.weightKey]
  refine congrArg (fun n => dst ++ encode 8 n) ?_
  rw [toNat_xor_top_bit]
  cases neg : dt.Time.Neg
  · simp only [Bool.false_eq_true, if_false, raw, Nat.reducePow]
    omega
  · simp only [if_true, UInt64.toNat_neg, raw, UInt64.size, Nat.reducePow]
    omega

/-! ## Comparisons -/

theorem Date.compare_nonpos_iff {d d2 : Date} : d.compare d2 ≤ 0 ↔
    d.year.toNat < d2.year.toNat ∨ d.year.toNat = d2.year.toNat ∧
      (d.month.toNat < d2.month.toNat ∨ d.month.toNat = d2.month.toNat ∧ d.day.toNat ≤ d2.day.toNat) := by
  simp only [Date.compare, compareThen_nonpos_iff, le_refl, and_true]
  omega

theorem Date.ext_toNat {d d2 : Date} : d = d2 ↔ d.year.toNat = d2.year.toNat ∧
    d.month.toNat = d2.month.toNat ∧ d.day.toNat = d2.day.toNat := by
  cases d
  cases d2
  simp [UInt16.toNat_inj, UInt8.toNat_inj]

theorem Date.compare_eq_zero_iff {d d2 : Date} : d.compare d2 = 0 ↔ d = d2 := by
  simp only [Date.compare, compareThen_eq_zero_iff, and_true, Date.ext_toNat]

theorem Time.compareFields_nonpos_iff {t t2 : Time} : t.compareFields t2 ≤ 0 ↔
    t.Hour < t2.Hour ∨ t.Hour = t2.Hour ∧ (t.minute.toNat < t2.minute.toNat ∨
      t.minute.toNat = t2.minute.toNat ∧ (t.second.toNat < t2.second.toNat ∨
        t.second.toNat = t2.second.toNat ∧ t.nanosecond.toNat ≤ t2.nanosecond.toNat)) := by
  simp only [Time.compareFields, compareThen_nonpos_iff, le_refl, and_true]
  omega

/-- `Time.Compare` orders times by their signed nanoseconds. -/
theorem Time.compare_nonpos {t t2 : Time} (ht : t.InRange) (ht2 : t2.InRange)
    (h : t.compare t2 ≤ 0) : t.nanoseconds ≤ t2.nanoseconds := by
  obtain ⟨minute, second, nanosecond⟩ := ht
  obtain ⟨minute2, second2, nanosecond2⟩ := ht2
  unfold Time.compare at h
  unfold Time.nanoseconds
  cases neg : t.Neg <;> cases neg2 : t2.Neg <;>
    simp only [neg, neg2, ne_eq, not_true_eq_false, reduceCtorEq, not_false_eq_true,
      ↓reduceIte] at h ⊢
  · rw [Time.compareFields_nonpos_iff] at h
    rw [Nat.cast_le]
    omega
  · omega
  · omega
  · rw [Time.compareFields_nonpos_iff] at h
    rw [neg_le_neg_iff, Nat.cast_le]
    omega

/-- The microseconds are the nanoseconds divided by a thousand, toward zero. -/
theorem Time.microseconds_eq_tdiv (t : Time) : t.microseconds = t.nanoseconds.tdiv 1000 := by
  have magnitude : (((t.Hour * 60 + t.minute.toNat) * 60 + t.second.toNat) * 10 ^ 9 +
      t.nanosecond.toNat) / 1000 = ((t.Hour * 60 + t.minute.toNat) * 60 + t.second.toNat) *
        10 ^ 6 + t.nanosecond.toNat / 1000 := by
    omega
  unfold Time.microseconds Time.nanoseconds
  cases t.Neg <;> simp only [Bool.false_eq_true, ↓reduceIte, Int.neg_tdiv] <;>
    rw [← magnitude, Int.ofNat_tdiv] <;> rfl

theorem Time.microseconds_le_of_nanoseconds_le {t t2 : Time}
    (h : t.nanoseconds ≤ t2.nanoseconds) : t.microseconds ≤ t2.microseconds := by
  rw [Time.microseconds_eq_tdiv, Time.microseconds_eq_tdiv]
  exact Int.tdiv_le_tdiv (by decide) h

theorem Time.signedPacked_le_iff {t t2 : Time} (ht : t.InRange) (ht2 : t2.InRange) :
    t.signedPacked ≤ t2.signedPacked ↔ t.microseconds ≤ t2.microseconds := by
  obtain ⟨minute, second, nanosecond⟩ := ht
  obtain ⟨minute2, second2, nanosecond2⟩ := ht2
  unfold Time.signedPacked Time.packed Time.microseconds
  cases t.Neg <;> cases t2.Neg <;> simp only [Bool.false_eq_true, ↓reduceIte] <;> omega

theorem Time.signedPacked_eq_iff {t t2 : Time} (ht : t.InRange) (ht2 : t2.InRange) :
    t.signedPacked = t2.signedPacked ↔ t.microseconds = t2.microseconds := by
  rw [le_antisymm_iff, le_antisymm_iff, Time.signedPacked_le_iff ht ht2,
    Time.signedPacked_le_iff ht2 ht]

/-! ## Dates -/

theorem Date.packed_eq_zero_iff (d : Date) : d.packed = 0 ↔ d.IsZero = true := by
  simp only [Date.packed, Date.IsZero, Bool.and_eq_true, decide_eq_true_eq, ← UInt16.toNat_inj,
    ← UInt8.toNat_inj, UInt16.toNat_zero, UInt8.toNat_zero]
  omega

theorem DateTime.compare_of_isZero {stdCompare : DateTime → DateTime → ℤ} {a b : DateTime}
    (za : a.Date.IsZero = true) (zb : b.Date.IsZero = true) :
    a.compare stdCompare b = a.Time.compare b.Time := by
  simp [DateTime.compare, za, zb]

theorem DateTime.compare_of_not_isZero {stdCompare : DateTime → DateTime → ℤ} {a b : DateTime}
    (za : a.Date.IsZero = false) (zb : b.Date.IsZero = false) :
    a.compare stdCompare b =
      if a.Date.compare b.Date ≠ 0 then a.Date.compare b.Date else a.Time.compare b.Time := by
  simp [DateTime.compare, za, zb]

/-- For `DATE` and `DATETIME` values the weight is the date above the time of the day. -/
theorem DateTime.weightKey_of_isDateValue {dt : DateTime} (value : dt.IsDateValue) :
    dt.weightKey = 2 ^ 63 + (dt.Date.packed * 2 ^ 41 + dt.Time.packed) ∧ dt.Time.packed < 2 ^ 41 := by
  obtain ⟨-, -, -, -, neg, hour, minute, second, nanosecond⟩ := value
  refine ⟨by simp [DateTime.weightKey, DateTime.packed, neg], ?_⟩
  unfold Time.packed
  omega

theorem DateTime.weightKey_le_of_dates {stdCompare : DateTime → DateTime → ℤ} {a b : DateTime}
    (va : a.IsDateValue) (vb : b.IsDateValue) (h : a.compare stdCompare b ≤ 0) :
    a.weightKey ≤ b.weightKey := by
  obtain ⟨keyA, timeA⟩ := DateTime.weightKey_of_isDateValue va
  obtain ⟨keyB, timeB⟩ := DateTime.weightKey_of_isDateValue vb
  obtain ⟨za, -, monthA, dayA, negA, -, rangeA⟩ := va
  obtain ⟨zb, -, monthB, dayB, negB, -, rangeB⟩ := vb
  rw [keyA, keyB, Nat.add_le_add_iff_left, Nat.le_iff_lt_or_eq, mul_add_lt_mul_add_iff timeA timeB,
    mul_add_eq_mul_add_iff timeA timeB]
  rw [DateTime.compare_of_not_isZero za zb] at h
  split_ifs at h with dates
  · -- an earlier date
    have earlier := Date.compare_nonpos_iff.mp h
    rw [Ne, Date.compare_eq_zero_iff, Date.ext_toNat] at dates
    left; left
    unfold Date.packed
    omega
  · -- the same date: the times decide
    rw [not_not, Date.compare_eq_zero_iff] at dates
    have times := Time.microseconds_le_of_nanoseconds_le (Time.compare_nonpos rangeA rangeB h)
    rw [← Time.signedPacked_le_iff rangeA rangeB] at times
    simp only [Time.signedPacked, negA, negB, Bool.false_eq_true, ↓reduceIte, Nat.cast_le] at times
    rw [dates]
    omega

theorem DateTime.weightKey_eq_iff_of_dates {a b : DateTime} (va : a.IsDateValue)
    (vb : b.IsDateValue) : a.weightKey = b.weightKey ↔
      a.Date = b.Date ∧ a.Time.microseconds = b.Time.microseconds := by
  obtain ⟨keyA, timeA⟩ := DateTime.weightKey_of_isDateValue va
  obtain ⟨keyB, timeB⟩ := DateTime.weightKey_of_isDateValue vb
  obtain ⟨-, -, monthA, dayA, negA, -, rangeA⟩ := va
  obtain ⟨-, -, monthB, dayB, negB, -, rangeB⟩ := vb
  have times : a.Time.packed = b.Time.packed ↔ a.Time.microseconds = b.Time.microseconds := by
    rw [← Time.signedPacked_eq_iff rangeA rangeB]
    simp [Time.signedPacked, negA, negB]
  rw [keyA, keyB, Nat.add_left_cancel_iff, mul_add_eq_mul_add_iff timeA timeB, times,
    Date.ext_toNat]
  unfold Date.packed
  constructor
  · rintro ⟨same, micro⟩
    exact ⟨by omega, micro⟩
  · rintro ⟨same, micro⟩
    exact ⟨by omega, micro⟩

/-! ## Times -/

/-- For `TIME` values the weight is `2 ^ 63` plus the signed packed time. -/
theorem DateTime.weightKey_of_isTimeValue {dt : DateTime} (value : dt.IsTimeValue) :
    (dt.weightKey : ℤ) = 2 ^ 63 + dt.Time.signedPacked := by
  obtain ⟨zero, hour, ⟨minute, second, nanosecond⟩, -⟩ := value
  have date : dt.Date.packed = 0 := (Date.packed_eq_zero_iff _).mpr zero
  have small : dt.Time.packed ≤ 2 ^ 63 := by
    unfold Time.packed
    omega
  unfold DateTime.weightKey DateTime.packed Time.signedPacked
  rw [date, Nat.zero_mul, Nat.zero_add]
  cases dt.Time.Neg
  · simp only [Bool.false_eq_true, ↓reduceIte, Nat.cast_add, Nat.cast_pow]
    rfl
  · simp only [↓reduceIte]
    rw [Nat.cast_sub small, Nat.cast_pow]
    ring

theorem Date.eq_of_isZero {d d2 : Date} (zero : d.IsZero = true) (zero2 : d2.IsZero = true) :
    d = d2 := by
  rw [← Date.packed_eq_zero_iff] at zero zero2
  rw [Date.ext_toNat]
  unfold Date.packed at zero zero2
  omega

theorem DateTime.weightKey_le_of_times {stdCompare : DateTime → DateTime → ℤ} {a b : DateTime}
    (va : a.IsTimeValue) (vb : b.IsTimeValue) (h : a.compare stdCompare b ≤ 0) :
    a.weightKey ≤ b.weightKey := by
  have keyA := DateTime.weightKey_of_isTimeValue va
  have keyB := DateTime.weightKey_of_isTimeValue vb
  obtain ⟨za, -, rangeA, -⟩ := va
  obtain ⟨zb, -, rangeB, -⟩ := vb
  rw [DateTime.compare_of_isZero za zb] at h
  have times := Time.microseconds_le_of_nanoseconds_le (Time.compare_nonpos rangeA rangeB h)
  rw [← Time.signedPacked_le_iff rangeA rangeB] at times
  rw [← Int.ofNat_le, keyA, keyB]
  omega

theorem DateTime.weightKey_eq_iff_of_times {a b : DateTime} (va : a.IsTimeValue)
    (vb : b.IsTimeValue) : a.weightKey = b.weightKey ↔
      a.Date = b.Date ∧ a.Time.microseconds = b.Time.microseconds := by
  have keyA := DateTime.weightKey_of_isTimeValue va
  have keyB := DateTime.weightKey_of_isTimeValue vb
  obtain ⟨za, -, rangeA, -⟩ := va
  obtain ⟨zb, -, rangeB, -⟩ := vb
  rw [← Int.ofNat_inj, keyA, keyB, add_right_inj, Time.signedPacked_eq_iff rangeA rangeB]
  simp [Date.eq_of_isZero za zb]

/-! ## Weight strings -/

theorem DateTime.weightString_of_value {dt : DateTime} (value : dt.IsDateValue ∨ dt.IsTimeValue) :
    dt.weightString [] = encode 8 dt.weightKey ∧ dt.weightKey < 2 ^ 64 := by
  have bounds : dt.Date.packed < 2 ^ 22 ∧ dt.Date.day.toNat < 32 ∧ dt.Time.minute.toNat < 64 ∧
      dt.Time.second.toNat < 64 ∧ (dt.Time.Hour < 32 ∨ dt.Date.packed = 0) := by
    rcases value with ⟨-, year, month, day, -, hour, minute, second, -⟩ |
      ⟨zero, -, ⟨minute, second, -⟩, -⟩
    · unfold Date.packed
      omega
    · have date := (Date.packed_eq_zero_iff dt.Date).mpr zero
      have day : dt.Date.day.toNat = 0 := by
        unfold Date.packed at date
        omega
      omega
  obtain ⟨date, day, minute, second, aligned⟩ := bounds
  have fits := dt.packed_lt date minute second aligned
  refine ⟨by simpa using dt.weightString_eq [] date day minute second aligned, ?_⟩
  unfold DateTime.weightKey
  split_ifs <;> omega

theorem weightString_preserves_order {stdCompare : DateTime → DateTime → ℤ} {a b : DateTime}
    (values : a.IsDateValue ∧ b.IsDateValue ∨ a.IsTimeValue ∧ b.IsTimeValue) :
    (a.compare stdCompare b ≤ 0 →
        Key.bytesCompare (a.weightString []) (b.weightString []) ≤ 0) ∧
      (a.weightString [] = b.weightString [] ↔
        a.Date = b.Date ∧ a.Time.microseconds = b.Time.microseconds) := by
  obtain ⟨weightA, keyA⟩ := DateTime.weightString_of_value (values.imp And.left And.left)
  obtain ⟨weightB, keyB⟩ := DateTime.weightString_of_value (values.imp And.right And.right)
  have bytesA : a.weightKey < 256 ^ 8 := by simpa using keyA
  have bytesB : b.weightKey < 256 ^ 8 := by simpa using keyB
  rw [weightA, weightB, Key.bytesCompare_encode_nonpos_iff bytesA bytesB, encode_inj bytesA bytesB]
  rcases values with ⟨va, vb⟩ | ⟨va, vb⟩
  · exact ⟨DateTime.weightKey_le_of_dates va vb, DateTime.weightKey_eq_iff_of_dates va vb⟩
  · exact ⟨DateTime.weightKey_le_of_times va vb, DateTime.weightKey_eq_iff_of_times va vb⟩

/-- The weight of `-838:59:59` sorts before that of `838:59:59`. -/
theorem weightString_preserves_order_extremes :
    Key.bytesCompare ((⟨⟨0, 0, 0⟩, ⟨33606, 59, 59, 0⟩⟩ : DateTime).weightString [])
      ((⟨⟨0, 0, 0⟩, ⟨838, 59, 59, 0⟩⟩ : DateTime).weightString []) ≤ 0 :=
  (@weightString_preserves_order (fun _ _ => 0) _ _ (Or.inr ⟨by decide, by decide⟩)).1
    (by decide)

end Vitess.Datetime
