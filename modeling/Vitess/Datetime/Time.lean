import Vitess.Datetime.Mydate
import Vitess.Go.Slice
import Mathlib.Data.Nat.Bitwise

/-!
# Times and date-times

The `Time` and `DateTime` values of `go/mysql/datetime/datetime.go`. A `Time`
keeps its hours in a `uint16` whose top bit, `negMask`, is the sign, and its
minutes, seconds and nanoseconds in fields of their own; a `DateTime` is a
`Date` and a `Time`, and a SQL `TIME` is a `DateTime` with the zero date.

`Time.round` rounds the nanoseconds half up to `p` digits and carries a whole
second into the minutes and the hours (`Time.carrySecond`) without looking at
any limit: every time whose fraction rounds up to a whole second takes the next
second (`round_of_rounds_up`), and `838:59:59`, the largest `TIME`, becomes
`839:00:00` (`carrySecond_past_limit`).
-/

namespace Vitess.Datetime

/-- `negMask`: the sign bit of `Time.hour`. -/
def negMask : UInt16 := (1 : UInt16) <<< 15

/-- `Time`. -/
structure Time where
  hour : UInt16
  minute : UInt8
  second : UInt8
  nanosecond : UInt32
  deriving DecidableEq, Repr

/-- `DateTime`. -/
structure DateTime where
  Date : Date
  Time : Time
  deriving DecidableEq, Repr

/-- `Time.Hour`: the hours without the sign bit. (`Minute`, `Second` and
`Nanosecond` are the fields as `int`s, `toNat` here.) -/
def Time.Hour (t : Time) : ℕ :=
  (t.hour &&& ~~~negMask).toNat

/-- `Time.Neg`. -/
def Time.Neg (t : Time) : Bool :=
  t.hour &&& negMask ≠ 0

/-- `Date.IsZero`. -/
def Date.IsZero (d : Date) : Bool :=
  d.year = 0 && d.month = 0 && d.day = 0

/-- `Time.IsZero`. -/
def Time.IsZero (t : Time) : Bool :=
  t.Hour = 0 && t.minute = 0 && t.second = 0 && t.nanosecond = 0

theorem Time.Hour_eq (t : Time) : t.Hour = t.hour.toNat % 2 ^ 15 := by
  rw [Time.Hour, UInt16.toNat_and, show (~~~negMask).toNat = 2 ^ 15 - 1 by decide,
    Nat.and_two_pow_sub_one_eq_mod]

theorem Time.Neg_eq (t : Time) : t.Neg = decide (2 ^ 15 ≤ t.hour.toNat) := by
  have below := t.hour.toNat_lt
  have bit : (t.hour &&& negMask).toNat = if 2 ^ 15 ≤ t.hour.toNat then 2 ^ 15 else 0 := by
    rw [UInt16.toNat_and, show negMask.toNat = 2 ^ 15 by decide, Nat.and_two_pow,
      Nat.testBit_eq_decide_div_mod_eq]
    by_cases high : 2 ^ 15 ≤ t.hour.toNat
    · rw [if_pos high, decide_eq_true (by omega : t.hour.toNat / 2 ^ 15 % 2 = 1)]
      rfl
    · rw [if_neg high, decide_eq_false (by omega : ¬ t.hour.toNat / 2 ^ 15 % 2 = 1)]
      rfl
  rw [Time.Neg, decide_eq_decide, ne_eq, ← UInt16.toNat_inj, bit, UInt16.toNat_zero]
  split_ifs <;> simp <;> omega

/-! ## Rounding the fraction of a second -/

/-- `precs`: the unit of the last digit kept, for each precision. -/
def precs : List ℕ :=
  [1000000000, 100000000, 10000000, 1000000, 100000, 10000, 1000, 100, 10, 1]

/-- The carry of a rounded-up second in `Time.Round`: the seconds, then the
minutes, then the hours go up by one, with no limit on the hours. -/
def Time.carrySecond (t : Time) : Time :=
  let r := { t with second := t.second + 1 }
  if r.second = 60 then
    let r := { r with minute := r.minute + 1, second := 0 }
    if r.minute = 60 then { r with hour := r.hour + 1, minute := 0 } else r
  else r

/-- `Time.Round(p)`: the nanoseconds rounded half up to `p` digits; `none` is the
panic of `precs[p]` for a `p` outside `0..9`. -/
def Time.round (t : Time) (p : ℤ) : Option Time :=
  if t.nanosecond = 0 then some t
  else do
    let n := t.nanosecond.toNat
    let prec ← (Go.index precs p).toOption
    let s := (n / prec) * prec
    let l := s + prec
    let n := if n - s ≥ l - n then l else s
    let r := if n = 1000000000 then t.carrySecond else t
    let n := if n = 1000000000 then 0 else n
    some { r with nanosecond := UInt32.ofNat n }

theorem index_precs {p : ℕ} (digits : p ≤ 9) : Go.index precs (p : ℤ) = .ok (10 ^ (9 - p)) := by
  have table : ∀ p : ℕ, p < 10 → Go.index precs (p : ℤ) = .ok (10 ^ (9 - p)) := by
    decide
  exact table p (by omega)

/-- A fraction within half a unit of the last digit kept below a whole second
rounds up to the next second. -/
theorem round_of_rounds_up {t : Time} {p : ℕ} (digits : p ≤ 9)
    (up : 10 ^ 9 - 10 ^ (9 - p) / 2 ≤ t.nanosecond.toNat) (below : t.nanosecond.toNat < 10 ^ 9) :
    t.round (p : ℤ) = some { t.carrySecond with nanosecond := 0 } := by
  have unit : 10 ^ p * 10 ^ (9 - p) = 10 ^ 9 := by
    rw [← pow_add, Nat.add_sub_cancel' digits]
  have positive : 0 < 10 ^ p := Nat.pow_pos (by decide)
  have last : (10 ^ p - 1) * 10 ^ (9 - p) = 10 ^ 9 - 10 ^ (9 - p) := by
    rw [Nat.sub_mul, one_mul, unit]
  have small : 10 ^ (9 - p) ≤ 10 ^ 9 := unit ▸ Nat.le_mul_of_pos_left _ positive
  have quotient : t.nanosecond.toNat / 10 ^ (9 - p) = 10 ^ p - 1 := by
    apply Nat.div_eq_of_lt_le
    · rw [last]
      omega
    · rw [Nat.sub_add_cancel positive, unit]
      exact below
  have nonzero : t.nanosecond ≠ 0 := by
    intro zero
    rw [zero, UInt32.toNat_zero] at up
    omega
  unfold Time.round
  rw [if_neg nonzero, index_precs digits]
  simp only [Except.toOption, Option.bind_eq_bind, Option.bind_some]
  generalize 10 ^ (9 - p) = prec at *
  generalize t.nanosecond.toNat = n at *
  have roundsUp : n - (10 ^ 9 - prec) ≥ 10 ^ 9 - prec + prec - n := by omega
  have second : (10 : ℕ) ^ 9 = 1000000000 := rfl
  rw [quotient, last, if_pos roundsUp, Nat.sub_add_cancel small, if_pos second, if_pos second]
  rfl

/-- One second past `838:59:59`, the largest `TIME`, is `839:00:00`, of the same
sign. -/
theorem carrySecond_past_limit {t : Time} (hour : t.Hour = 838) (minute : t.minute = 59)
    (second : t.second = 59) : t.carrySecond.Hour = 839 ∧ t.carrySecond.minute = 0 ∧
      t.carrySecond.second = 0 ∧ t.carrySecond.Neg = t.Neg := by
  rw [Time.Hour_eq] at hour
  have below := t.hour.toNat_lt
  unfold Time.carrySecond
  simp only [second, minute, show (59 : UInt8) + 1 = 60 by decide, if_pos]
  refine ⟨?_, by simp, by simp, ?_⟩
  · rw [Time.Hour_eq, UInt16.toNat_add]
    simp only [UInt16.toNat_one]
    omega
  · rw [Time.Neg_eq, Time.Neg_eq, decide_eq_decide, UInt16.toNat_add]
    simp only [UInt16.toNat_one]
    omega

end Vitess.Datetime
