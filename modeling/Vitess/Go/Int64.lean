import Mathlib.Data.Int.Order.Basic
import Mathlib.Algebra.Group.Int.Defs
import Mathlib.Algebra.Group.Nat.Defs

/-!
# Go's 64-bit integers

An `int64` is an integer of `[-2^63, 2^63)` and a `uint64` a natural below
`2^64`; Go's `+` on them wraps modulo `2^64` (two's complement for `int64`).
Code that must notice a signed overflow compares the wrapped sum with an operand:
`addWrapped_test_iff` says that the test `(a + n > a) != (n > 0)` is true exactly
when the exact sum leaves the `int64` range, and `subWrapped_test_iff` the same of
`a - n`. Division truncates toward zero and also wraps: `math.MinInt64 / -1` is
`math.MinInt64`. So the test that divides a wrapped product back by a factor
(`mulWrapped_test_iff`) misses exactly one overflow, `-1 * math.MinInt64`.
An `int32` wraps the same way modulo `2^32` (`wrapInt32`).
-/

namespace Vitess.Go

/-- `z` is an `int64` value. -/
def InInt64 (z : ℤ) : Prop :=
  -2 ^ 63 ≤ z ∧ z < 2 ^ 63

instance : DecidablePred InInt64 :=
  fun _ => inferInstanceAs (Decidable (_ ∧ _))

/-- `z` is a `uint64` value. -/
def InUint64 (n : ℕ) : Prop :=
  n < 2 ^ 64

instance : DecidablePred InUint64 :=
  fun _ => inferInstanceAs (Decidable (_ < _))

/-- Two's-complement wrap of an integer into `int64`: what Go's `int64`
arithmetic keeps of the exact result. -/
def wrapInt64 (z : ℤ) : ℤ :=
  (z + 2 ^ 63) % 2 ^ 64 - 2 ^ 63

/-- `z` is an `int32` value. -/
def InInt32 (z : ℤ) : Prop :=
  -2 ^ 31 ≤ z ∧ z < 2 ^ 31

instance : DecidablePred InInt32 :=
  fun _ => inferInstanceAs (Decidable (_ ∧ _))

/-- Two's-complement wrap of an integer into `int32`. A chain of `int32`
operations keeps the wrap of its exact result, so one wrap stands for the chain. -/
def wrapInt32 (z : ℤ) : ℤ :=
  (z + 2 ^ 31) % 2 ^ 32 - 2 ^ 31

/-- What Go's `uint64` arithmetic keeps of the exact result. -/
def wrapUint64 (n : ℕ) : ℕ :=
  n % 2 ^ 64

/-- Go's conversion `uint64(z)` of an `int64`. -/
def toUint64 (z : ℤ) : ℕ :=
  (z % 2 ^ 64).toNat

/-- Go's conversion `int64(n)` of a `uint64`. -/
def toInt64 (n : ℕ) : ℤ :=
  wrapInt64 n

theorem wrapInt64_of_inInt64 {z : ℤ} (inRange : InInt64 z) : wrapInt64 z = z := by
  unfold InInt64 at inRange
  unfold wrapInt64
  omega

theorem wrapInt64_inInt64 (z : ℤ) : InInt64 (wrapInt64 z) := by
  unfold InInt64 wrapInt64
  omega

theorem wrapInt32_of_inInt32 {z : ℤ} (inRange : InInt32 z) : wrapInt32 z = z := by
  unfold InInt32 at inRange
  unfold wrapInt32
  omega

theorem wrapInt32_inInt32 (z : ℤ) : InInt32 (wrapInt32 z) := by
  unfold InInt32 wrapInt32
  omega

/-- A count of `[2^31, 2^32)` wraps to a negative `int32`. -/
theorem wrapInt32_of_le_of_lt {z : ℤ} (low : 2 ^ 31 ≤ z) (high : z < 2 ^ 32) : wrapInt32 z = z - 2 ^ 32 := by
  unfold wrapInt32
  omega

theorem wrapUint64_of_inUint64 {n : ℕ} (inRange : InUint64 n) : wrapUint64 n = n :=
  Nat.mod_eq_of_lt inRange

theorem toUint64_lt (z : ℤ) : toUint64 z < 2 ^ 64 := by
  unfold toUint64
  omega

/-- Converting an `int64` to `uint64` and back gives it again. -/
theorem toInt64_toUint64 {z : ℤ} (inRange : InInt64 z) : toInt64 (toUint64 z) = z := by
  unfold InInt64 at inRange
  unfold toInt64 toUint64 wrapInt64
  omega

/-- The bits of a wrapped value are those of the exact one. -/
theorem toUint64_wrapInt64 (z : ℤ) : toUint64 (wrapInt64 z) = toUint64 z := by
  unfold toUint64 wrapInt64
  omega

/-- Go's signed overflow test after `result := a + n`: the wrapped sum moved
from `a` the other way than the sign of `n` says, exactly when the exact sum is
out of range. -/
theorem addWrapped_test_iff {a n : ℤ} (aInRange : InInt64 a) (nInRange : InInt64 n) :
    (decide (a < wrapInt64 (a + n)) != decide (0 < n)) = true ↔ ¬ InInt64 (a + n) := by
  unfold InInt64 at aInRange nInRange
  unfold InInt64 wrapInt64
  -- the wrap moves the sum by 2^64 against the direction of `n` exactly on overflow
  rcases lt_trichotomy n 0 with negative | zero | positive
  · by_cases below : a + n < -2 ^ 63
    · have wrapped : (a + n + 2 ^ 63) % 2 ^ 64 - 2 ^ 63 = a + n + 2 ^ 64 := by omega
      rw [wrapped]
      simp only [bne_iff_ne, ne_eq, decide_eq_decide]
      omega
    · have exact : (a + n + 2 ^ 63) % 2 ^ 64 - 2 ^ 63 = a + n := by omega
      rw [exact]
      simp only [bne_iff_ne, ne_eq, decide_eq_decide]
      omega
  · subst zero
    simp
    omega
  · by_cases above : 2 ^ 63 ≤ a + n
    · have wrapped : (a + n + 2 ^ 63) % 2 ^ 64 - 2 ^ 63 = a + n - 2 ^ 64 := by omega
      rw [wrapped]
      simp only [bne_iff_ne, ne_eq, decide_eq_decide]
      omega
    · have exact : (a + n + 2 ^ 63) % 2 ^ 64 - 2 ^ 63 = a + n := by omega
      rw [exact]
      simp only [bne_iff_ne, ne_eq, decide_eq_decide]
      omega

/-- Go's signed overflow test after `result := a - n`, the mirror of
`addWrapped_test_iff`. -/
theorem subWrapped_test_iff {a n : ℤ} (aInRange : InInt64 a) (nInRange : InInt64 n) :
    (decide (wrapInt64 (a - n) < a) != decide (0 < n)) = true ↔ ¬ InInt64 (a - n) := by
  unfold InInt64 at aInRange nInRange
  unfold InInt64 wrapInt64
  simp only [bne_iff_ne, ne_eq, decide_eq_decide]
  omega

/-- The quotient of an `int64` by a nonzero one is at most `2^63` in size, and
is `2^63` only for `math.MinInt64 / -1`. -/
theorem tdiv_inInt64_or {r a : ℤ} (rRange : InInt64 r) (aRange : InInt64 a) (nonzero : a ≠ 0) :
    InInt64 (r.tdiv a) ∨ (r = -2 ^ 63 ∧ a = -1) := by
  have quotientLe := Int.natAbs_tdiv_le_natAbs r a
  by_cases fits : InInt64 (r.tdiv a)
  · exact .inl fits
  · right
    unfold InInt64 at *
    -- only `2^63` is outside the range and no larger than `r`
    have top : r.tdiv a = 2 ^ 63 := by omega
    have bottom : r = -2 ^ 63 := by omega
    have unit : a = 1 ∨ a = -1 := by
      have exact : (r.tdiv a).natAbs = r.natAbs / a.natAbs := Int.natAbs_tdiv r a
      by_contra notUnit
      have halves : r.natAbs / a.natAbs ≤ r.natAbs / 2 := Nat.div_le_div_left (by omega) (by decide)
      omega
    rcases unit with one | minusOne
    · rw [one, Int.tdiv_one] at top
      omega
    · exact ⟨bottom, minusOne⟩

/-- Go's signed overflow test after `result := a * n`: dividing the wrapped
product back by `a` fails to give `n` exactly when the exact product is out of
range, except for `-1 * math.MinInt64`, whose wrap divides back by `-1` to
`math.MinInt64` again. -/
theorem mulWrapped_test_iff {a n : ℤ} (aInRange : InInt64 a) (nInRange : InInt64 n)
    (notMinusMin : ¬ (a = -1 ∧ n = -2 ^ 63)) :
    (a ≠ 0 ∧ wrapInt64 ((wrapInt64 (a * n)).tdiv a) ≠ n) ↔ ¬ InInt64 (a * n) := by
  have rRange := wrapInt64_inInt64 (a * n)
  constructor
  · rintro ⟨nonzero, differs⟩ fits
    rw [wrapInt64_of_inInt64 fits, Int.mul_tdiv_cancel_left n nonzero,
      wrapInt64_of_inInt64 nInRange] at differs
    exact differs rfl
  · intro overflows
    have nonzero : a ≠ 0 := by
      rintro rfl
      simp [InInt64] at overflows
    refine ⟨nonzero, fun same => ?_⟩
    rcases tdiv_inInt64_or rRange aInRange nonzero with fits | ⟨bottom, minusOne⟩
    · -- the quotient is `n` itself, so the wrap differs from the product by less than `a`
      rw [wrapInt64_of_inInt64 fits] at same
      have decompose := Int.tmod_add_tdiv_mul (wrapInt64 (a * n)) a
      have remainder := Int.natAbs_tmod (wrapInt64 (a * n)) a
      have small : (wrapInt64 (a * n)).natAbs % a.natAbs < a.natAbs :=
        Nat.mod_lt _ (Int.natAbs_pos.mpr nonzero)
      rw [same, Int.mul_comm n a] at decompose
      unfold InInt64 wrapInt64 at *
      omega
    · rw [bottom, minusOne] at same
      exact notMinusMin ⟨minusOne, by simpa [wrapInt64] using same.symm⟩

/-! ## Conversions to unsigned fields

`uint64(z)`, `uint16(z)` and `uint8(z)` keep the low bits of an `int`; a value that
fits is kept as it is, and a field read as an `int` converts back to itself. -/

theorem toNat_ofInt64 (z : ℤ) : ((UInt64.ofInt z).toNat : ℤ) = z % 2 ^ 64 := by
  rw [UInt64.ofInt, UInt64.toNat_ofNat']
  omega

theorem toNat_ofInt16 {z : ℤ} (nonneg : 0 ≤ z) (below : z < 2 ^ 16) :
    ((UInt16.ofInt z).toNat : ℤ) = z := by
  rw [UInt16.ofInt, UInt16.toNat_ofNat']
  omega

theorem ofInt16_toNat (n : UInt16) : UInt16.ofInt (n.toNat : ℤ) = n := by
  apply UInt16.toNat_inj.mp
  have := n.toNat_lt
  rw [UInt16.ofInt, UInt16.toNat_ofNat']
  omega

theorem toNat_ofInt8 {z : ℤ} (nonneg : 0 ≤ z) (below : z < 2 ^ 8) :
    ((UInt8.ofInt z).toNat : ℤ) = z := by
  rw [UInt8.ofInt, UInt8.toNat_ofNat']
  omega

theorem ofInt8_toNat (n : UInt8) : UInt8.ofInt (n.toNat : ℤ) = n := by
  apply UInt8.toNat_inj.mp
  have := n.toNat_lt
  rw [UInt8.ofInt, UInt8.toNat_ofNat']
  omega

end Vitess.Go
