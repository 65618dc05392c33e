import Vitess.Evalengine.Arithmetic

/-!
# The checked integer helpers

The helpers of `arithmetic.go` for `+`, `-`, `*`, `DIV` and `MOD` on `int64`
and `uint64` operands, against the exact integer operations. Both the
interpreter and the VM call them. The contract they are written to keep is
`ExactOrOutOfRange`: the exact result when it fits the result type, and a
`DataOutOfRange` error when it does not.

Addition and subtraction keep it on every pair of operands. Multiplication and
integer division keep it except on operand pairs that the lemmas here name:
`-1 * math.MinInt64`, whose wrapped product divides back to its second factor;
unsigned products whose wrap is still at least both factors; and three edges of
`DIV` next to `math.MinInt64` and `math.MaxInt64`. The `MOD` helpers compute the
remainder of the truncated division, which has the sign of the dividend.
-/

namespace Vitess.Evalengine

open Vitess.Go

/-- `BIGINT UNSIGNED` holds `z`. -/
def UnsignedFits (z : ℤ) : Prop :=
  0 ≤ z ∧ z < 2 ^ 64

instance : DecidablePred UnsignedFits :=
  fun _ => inferInstanceAs (Decidable (_ ∧ _))

/-- The contract of a checked helper whose values `value` reads as integers: the
exact result `exact` when it `fits` the result type, and a `DataOutOfRange`
error when it does not. -/
def ExactOrOutOfRange {α : Type} (value : α → ℤ) (fits : ℤ → Prop) (exact : ℤ) :
    Except EvalError α → Prop
  | .ok r => fits exact ∧ value r = exact
  | .error e => ¬ fits exact ∧ ∃ info, e = .dataOutOfRange info

section Contract

variable {α : Type} {value : α → ℤ} {fits : ℤ → Prop} {exact : ℤ}

theorem exactOrOutOfRange_ok {r : α} (holds : fits exact) (eq : value r = exact) :
    ExactOrOutOfRange value fits exact (.ok r) :=
  ⟨holds, eq⟩

theorem exactOrOutOfRange_error (info : DataOutOfRange) (outside : ¬ fits exact) :
    ExactOrOutOfRange value fits exact (.error (.dataOutOfRange info)) :=
  ⟨outside, info, rfl⟩

/-- A helper that returns another's result keeps its contract for the same
exact value. -/
theorem ExactOrOutOfRange.of_eq {exact' : ℤ} {result : Except EvalError α}
    (holds : ExactOrOutOfRange value fits exact result) (same : exact = exact') :
    ExactOrOutOfRange value fits exact' result :=
  same ▸ holds

/-- A signed helper that returns the wrapped result unless a test fires that is
true exactly when the result overflows. -/
theorem exactOrOutOfRange_of_test {test : Prop} [Decidable test] {info : DataOutOfRange}
    (overflows : test ↔ ¬ InInt64 exact) :
    ExactOrOutOfRange id InInt64 exact
      (if test then .error (.dataOutOfRange info) else .ok (wrapInt64 exact)) := by
  split
  case isTrue fired => exact exactOrOutOfRange_error _ (overflows.mp fired)
  case isFalse quiet =>
    have holds : InInt64 exact := by
      by_contra outside
      exact quiet (overflows.mpr outside)
    exact exactOrOutOfRange_ok holds (wrapInt64_of_inInt64 holds)

end Contract

/-! ## Addition and subtraction -/

section AddSub

variable {i1 i2 : ℤ} {u1 u2 : ℕ}

theorem mathAdd_ii0_exact (range1 : InInt64 i1) (range2 : InInt64 i2) :
    ExactOrOutOfRange id InInt64 (i1 + i2) (mathAdd_ii0 i1 i2) :=
  exactOrOutOfRange_of_test (addWrapped_test_iff range1 range2)

theorem mathSub_ii0_exact (range1 : InInt64 i1) (range2 : InInt64 i2) :
    ExactOrOutOfRange id InInt64 (i1 - i2) (mathSub_ii0 i1 i2) :=
  exactOrOutOfRange_of_test (subWrapped_test_iff range1 range2)

theorem mathAdd_uu0_exact (range1 : InUint64 u1) (range2 : InUint64 u2) :
    ExactOrOutOfRange Nat.cast UnsignedFits (u1 + u2) (mathAdd_uu0 u1 u2) := by
  unfold InUint64 at range1 range2
  unfold mathAdd_uu0 wrapUint64
  dsimp only
  -- the wrapped sum is below an operand exactly when it wrapped
  split
  case isTrue wrapped => exact exactOrOutOfRange_error _ (by unfold UnsignedFits; omega)
  case isFalse => exact exactOrOutOfRange_ok (by unfold UnsignedFits; omega) (by omega)

theorem mathSub_uu0_exact (range1 : InUint64 u1) :
    ExactOrOutOfRange Nat.cast UnsignedFits (u1 - u2 : ℤ) (mathSub_uu0 u1 u2) := by
  unfold InUint64 at range1
  unfold mathSub_uu0
  split
  case isTrue below => exact exactOrOutOfRange_error _ (by unfold UnsignedFits; omega)
  case isFalse notBelow =>
    exact exactOrOutOfRange_ok (by unfold UnsignedFits; omega) (by omega)

/-- Adding a negative `int64` subtracts its magnitude, which the test compares
with `uint64(-v2)`; `-math.MinInt64` wraps, but converts to the right magnitude. -/
theorem mathAdd_ui0_exact (range1 : InUint64 u1) (range2 : InInt64 i2) :
    ExactOrOutOfRange Nat.cast UnsignedFits (u1 + i2) (mathAdd_ui0 u1 i2) := by
  unfold InUint64 at range1
  unfold InInt64 at range2
  unfold mathAdd_ui0 wrapUint64 toUint64 wrapInt64
  dsimp only
  split
  case isTrue outside => exact exactOrOutOfRange_error _ (by unfold UnsignedFits; omega)
  case isFalse inside => exact exactOrOutOfRange_ok (by unfold UnsignedFits; omega) (by omega)

theorem mathSub_iu0_exact (range1 : InInt64 i1) :
    ExactOrOutOfRange Nat.cast UnsignedFits (i1 - u2) (mathSub_iu0 i1 u2) := by
  unfold mathSub_iu0
  split
  case isTrue negative => exact exactOrOutOfRange_error _ (by unfold UnsignedFits; omega)
  case isFalse nonnegative =>
    -- a non-negative `int64` converts to the same `uint64`
    unfold InInt64 at range1
    have same : (toUint64 i1 : ℤ) = i1 := by
      unfold toUint64
      omega
    have below : InUint64 (toUint64 i1) := by
      unfold InUint64 toUint64
      omega
    exact (mathSub_uu0_exact below).of_eq (by rw [same])

theorem mathSub_ui0_exact (range1 : InUint64 u1) (range2 : InInt64 i2) :
    ExactOrOutOfRange Nat.cast UnsignedFits (u1 - i2) (mathSub_ui0 u1 i2) := by
  unfold InInt64 at range2
  unfold mathSub_ui0
  split
  case isTrue below =>
    exact exactOrOutOfRange_error _ (by unfold UnsignedFits toUint64 at *; omega)
  case isFalse notBelow =>
    split
    case isTrue negative =>
      -- subtracting a negative number adds its magnitude, `-math.MinInt64` included
      have magnitude : (toUint64 (wrapInt64 (-i2)) : ℤ) = -i2 := by
        unfold toUint64 wrapInt64
        omega
      have below : InUint64 (toUint64 (wrapInt64 (-i2))) := by
        unfold InUint64
        omega
      exact (mathAdd_uu0_exact range1 below).of_eq (by rw [magnitude]; ring)
    case isFalse nonnegative =>
      have same : (toUint64 i2 : ℤ) = i2 := by
        unfold toUint64
        omega
      exact (mathSub_uu0_exact range1).of_eq (by rw [same])

end AddSub

/-- `+` and `-` on `int64` and `uint64` operands: every helper returns the exact
result when it fits the result type, and a `DataOutOfRange` error when it does
not. -/
theorem add_sub_helpers_exact (i1 i2 : ℤ) (u1 u2 : ℕ) (signed1 : InInt64 i1)
    (signed2 : InInt64 i2) (unsigned1 : InUint64 u1) (unsigned2 : InUint64 u2) :
    ExactOrOutOfRange id InInt64 (i1 + i2) (mathAdd_ii0 i1 i2) ∧
      ExactOrOutOfRange Nat.cast UnsignedFits (u1 + i2) (mathAdd_ui0 u1 i2) ∧
      ExactOrOutOfRange Nat.cast UnsignedFits (u1 + u2) (mathAdd_uu0 u1 u2) ∧
      ExactOrOutOfRange id InInt64 (i1 - i2) (mathSub_ii0 i1 i2) ∧
      ExactOrOutOfRange Nat.cast UnsignedFits (i1 - u2) (mathSub_iu0 i1 u2) ∧
      ExactOrOutOfRange Nat.cast UnsignedFits (u1 - i2) (mathSub_ui0 u1 i2) ∧
      ExactOrOutOfRange Nat.cast UnsignedFits (u1 - u2 : ℤ) (mathSub_uu0 u1 u2) :=
  ⟨mathAdd_ii0_exact signed1 signed2, mathAdd_ui0_exact unsigned1 signed2,
    mathAdd_uu0_exact unsigned1 unsigned2, mathSub_ii0_exact signed1 signed2,
    mathSub_iu0_exact signed1, mathSub_ui0_exact unsigned1 signed2, mathSub_uu0_exact unsigned1⟩

theorem add_sub_helpers_exact_at_limits :
    InInt64 (2 ^ 63 - 1) ∧ InInt64 (-2 ^ 63) ∧ InUint64 (2 ^ 64 - 1) ∧ InUint64 1 ∧
      ExactOrOutOfRange id InInt64 (2 ^ 63 - 1 + -2 ^ 63) (mathAdd_ii0 (2 ^ 63 - 1) (-2 ^ 63)) ∧
      ExactOrOutOfRange Nat.cast UnsignedFits ((2 ^ 64 - 1 : ℕ) + -2 ^ 63)
        (mathAdd_ui0 (2 ^ 64 - 1) (-2 ^ 63)) ∧
      ExactOrOutOfRange Nat.cast UnsignedFits ((2 ^ 64 - 1 : ℕ) + (1 : ℕ))
        (mathAdd_uu0 (2 ^ 64 - 1) 1) ∧
      ExactOrOutOfRange id InInt64 (2 ^ 63 - 1 - -2 ^ 63) (mathSub_ii0 (2 ^ 63 - 1) (-2 ^ 63)) ∧
      ExactOrOutOfRange Nat.cast UnsignedFits (2 ^ 63 - 1 - (1 : ℕ)) (mathSub_iu0 (2 ^ 63 - 1) 1) ∧
      ExactOrOutOfRange Nat.cast UnsignedFits ((2 ^ 64 - 1 : ℕ) - -2 ^ 63)
        (mathSub_ui0 (2 ^ 64 - 1) (-2 ^ 63)) ∧
      ExactOrOutOfRange Nat.cast UnsignedFits ((2 ^ 64 - 1 : ℕ) - (1 : ℕ) : ℤ)
        (mathSub_uu0 (2 ^ 64 - 1) 1) :=
  have signed1 : InInt64 (2 ^ 63 - 1) := by decide
  have signed2 : InInt64 (-2 ^ 63) := by decide
  have unsigned1 : InUint64 (2 ^ 64 - 1) := by decide
  have unsigned2 : InUint64 1 := by decide
  ⟨signed1, signed2, unsigned1, unsigned2,
    add_sub_helpers_exact (2 ^ 63 - 1) (-2 ^ 63) (2 ^ 64 - 1) 1 signed1 signed2 unsigned1 unsigned2⟩

/-! ## Multiplication -/

/-- The half of the contract that a missed overflow still keeps: a result that
fits is returned, and an error means that the result does not fit. -/
def FitsReturned {α : Type} (value : α → ℤ) (fits : ℤ → Prop) (exact : ℤ) :
    Except EvalError α → Prop
  | .ok r => fits exact → value r = exact
  | .error e => ¬ fits exact ∧ ∃ info, e = .dataOutOfRange info

section Mul

variable {i1 i2 : ℤ} {u1 u2 : ℕ}

/-- `mathMul_ii0` keeps the contract on every pair of operands but
`-1 * math.MinInt64`. -/
theorem mathMul_ii0_exact (range1 : InInt64 i1) (range2 : InInt64 i2)
    (notMinusMin : ¬ (i1 = -1 ∧ i2 = -2 ^ 63)) :
    ExactOrOutOfRange id InInt64 (i1 * i2) (mathMul_ii0 i1 i2) :=
  exactOrOutOfRange_of_test (mulWrapped_test_iff range1 range2 notMinusMin)

/-- `mathMul_uu0` tests the wrapped product against both factors: it never
reports a product that fits, but an overflow may wrap to a value above both. -/
theorem mathMul_uu0_fitsReturned (u1 u2 : ℕ) :
    FitsReturned Nat.cast UnsignedFits (u1 * u2) (mathMul_uu0 u1 u2) := by
  unfold mathMul_uu0 wrapUint64
  split
  case isTrue zero =>
    intro _
    rcases zero with rfl | rfl <;> simp
  case isFalse nonzero =>
    dsimp only
    have left : u1 ≤ u1 * u2 := Nat.le_mul_of_pos_right u1 (by omega)
    have right : u2 ≤ u1 * u2 := Nat.le_mul_of_pos_left u2 (by omega)
    split
    case isTrue below =>
      refine ⟨fun fits => ?_, _, rfl⟩
      unfold UnsignedFits at fits
      rw [Nat.mod_eq_of_lt (by omega)] at below
      omega
    case isFalse => exact fun fits => by unfold UnsignedFits at fits; push_cast; omega

theorem mathMul_ui0_fitsReturned (range2 : InInt64 i2) :
    FitsReturned Nat.cast UnsignedFits (u1 * i2) (mathMul_ui0 u1 i2) := by
  unfold mathMul_ui0
  split
  case isTrue zero =>
    intro _
    rcases zero with rfl | rfl <;> simp
  case isFalse nonzero =>
    split
    case isTrue negative =>
      refine ⟨fun fits => ?_, _, rfl⟩
      have : (u1 : ℤ) * i2 < 0 := Int.mul_neg_of_pos_of_neg (by omega) negative
      unfold UnsignedFits at fits
      omega
    case isFalse nonnegative =>
      have same : (toUint64 i2 : ℤ) = i2 := by
        unfold InInt64 at range2
        unfold toUint64
        omega
      have holds := mathMul_uu0_fitsReturned u1 (toUint64 i2)
      rw [same] at holds
      exact holds

end Mul

/-- `-1 * math.MinInt64` and `3 * 2^63` overflow, yet `mathMul_ii0`,
`mathMul_uu0` and `mathMul_ui0` return a wrapped product and no error, and so
does the interpreter's `*`. -/
theorem mul_helpers_miss_overflows (newFromFloat : ℚ → Decimal) :
    ¬ InInt64 (-1 * -2 ^ 63) ∧ mathMul_ii0 (-1) (-2 ^ 63) = .ok (-2 ^ 63) ∧
      multiplyNumericWithError newFromFloat (.int64 (-1)) (.int64 (-2 ^ 63)) =
        .ok (.int64 (-2 ^ 63)) ∧
      ¬ UnsignedFits (3 * 2 ^ 63) ∧ mathMul_uu0 3 (2 ^ 63) = .ok (2 ^ 63) ∧
      mathMul_ui0 (2 ^ 63) 3 = .ok (2 ^ 63) := by
  refine ⟨by decide, by rfl, by rfl, by decide, by rfl, by rfl⟩

/-! ## Integer division and remainder -/

section Div

variable {i1 i2 : ℤ} {u1 u2 : ℕ}

/-- `mathIntDiv_ii` returns the truncated quotient, which is an `int64`, on every
pair of operands but `math.MinInt64 DIV -1`. -/
theorem mathIntDiv_ii_exact (range1 : InInt64 i1) (range2 : InInt64 i2) (nonzero : i2 ≠ 0)
    (notMinOverMinusOne : ¬ (i1 = -2 ^ 63 ∧ i2 = -1)) :
    InInt64 (i1.tdiv i2) ∧ mathIntDiv_ii i1 i2 = .ok (some (.int64 (i1.tdiv i2))) := by
  rcases tdiv_inInt64_or range1 range2 nonzero with fits | edge
  · simp [mathIntDiv_ii, nonzero, wrapInt64_of_inInt64 fits, fits]
  · exact absurd edge notMinOverMinusOne

/-- `mathIntDiv_iu0` keeps the contract except where a negative dividend is at
least as large as a divisor of at least `math.MaxInt64`: there it returns `0`
where the quotient is `-1`. -/
theorem mathIntDiv_iu0_exact (range1 : InInt64 i1) (range2 : InUint64 u2)
    (notEdge : ¬ (2 ^ 63 - 1 ≤ u2 ∧ (u2 : ℤ) ≤ -i1)) :
    ExactOrOutOfRange Nat.cast UnsignedFits (i1.tdiv u2) (mathIntDiv_iu0 i1 u2) := by
  unfold InInt64 at range1
  unfold InUint64 at range2
  have quotientLe := Int.natAbs_tdiv_le_natAbs i1 u2
  unfold mathIntDiv_iu0
  split
  case isTrue negative =>
    split
    case isTrue large =>
      -- the dividend is smaller than the divisor, so the quotient is `0`
      have zero : i1.tdiv u2 = 0 := by
        have exact : (i1.tdiv u2).natAbs = i1.natAbs / (u2 : ℤ).natAbs := Int.natAbs_tdiv i1 u2
        rw [Nat.div_eq_of_lt (by omega)] at exact
        omega
      exact exactOrOutOfRange_ok (by unfold UnsignedFits; omega) (by rw [zero]; rfl)
    case isFalse small =>
      have divisor : toInt64 u2 = u2 := by
        unfold toInt64 wrapInt64
        omega
      dsimp only
      rw [divisor]
      split
      case isTrue below => exact exactOrOutOfRange_error _ (by unfold UnsignedFits; omega)
      case isFalse notBelow =>
        exact exactOrOutOfRange_ok (by unfold UnsignedFits; omega) (by unfold toUint64; omega)
  case isFalse nonnegative =>
    have dividend : ((toUint64 i1 : ℕ) : ℤ) = i1 := by
      unfold toUint64
      omega
    have nonneg := Int.tdiv_nonneg (by omega : 0 ≤ i1) (Int.natCast_nonneg u2)
    refine exactOrOutOfRange_ok (by unfold UnsignedFits; omega) ?_
    rw [Int.ofNat_tdiv, dividend]

/-- `mathIntDiv_ui0` keeps the contract except on `math.MaxInt64 DIV
math.MinInt64`, whose quotient `0` it reports out of range. -/
theorem mathIntDiv_ui0_exact (range1 : InUint64 u1) (range2 : InInt64 i2)
    (notEdge : ¬ (u1 = 2 ^ 63 - 1 ∧ i2 = -2 ^ 63)) :
    ExactOrOutOfRange Nat.cast UnsignedFits ((u1 : ℤ).tdiv i2) (mathIntDiv_ui0 u1 i2) := by
  unfold InUint64 at range1
  unfold InInt64 at range2
  have quotientLe := Int.natAbs_tdiv_le_natAbs u1 i2
  unfold mathIntDiv_ui0
  split
  case isTrue negative =>
    -- a negative divisor makes the quotient of a natural dividend non-positive
    have nonpositive : (u1 : ℤ).tdiv i2 ≤ 0 := by
      have flipped : (u1 : ℤ).tdiv i2 = -((u1 : ℤ).tdiv (-i2)) := by
        rw [← Int.tdiv_neg, Int.neg_neg]
      have nonneg := Int.tdiv_nonneg (Int.natCast_nonneg u1) (by omega : 0 ≤ -i2)
      omega
    split
    case isTrue large =>
      -- the divisor is at most as large as the dividend, so the quotient is negative
      have exact : ((u1 : ℤ).tdiv i2).natAbs = u1 / i2.natAbs := Int.natAbs_tdiv u1 i2
      have positive : 0 < u1 / i2.natAbs := Nat.div_pos (by omega) (by omega)
      exact exactOrOutOfRange_error _ (by unfold UnsignedFits; omega)
    case isFalse small =>
      have dividend : toInt64 u1 = u1 := by
        unfold toInt64 wrapInt64
        omega
      dsimp only
      rw [dividend]
      split
      case isTrue below => exact exactOrOutOfRange_error _ (by unfold UnsignedFits; omega)
      case isFalse notBelow =>
        exact exactOrOutOfRange_ok (by unfold UnsignedFits; omega) (by unfold toUint64; omega)
  case isFalse nonnegative =>
    have divisor : ((toUint64 i2 : ℕ) : ℤ) = i2 := by
      unfold toUint64
      omega
    refine exactOrOutOfRange_ok ?_ ?_
    · have nonneg := Int.tdiv_nonneg (Int.natCast_nonneg u1) (by omega : 0 ≤ i2)
      unfold UnsignedFits
      omega
    · rw [Int.ofNat_tdiv, divisor]

/-- `mathMod_iu0` is the remainder of the truncated division, also where it
short-cuts a divisor beyond `math.MaxInt64`. -/
theorem mathMod_iu0_eq (range1 : InInt64 i1) (range2 : InUint64 u2) (nonzero : u2 ≠ 0) :
    mathMod_iu0 i1 u2 = i1.tmod u2 := by
  unfold InInt64 at range1
  unfold InUint64 at range2
  have remainder : (i1.tmod u2).natAbs = i1.natAbs % (u2 : ℤ).natAbs := Int.natAbs_tmod i1 u2
  unfold mathMod_iu0
  split
  case isTrue edge =>
    obtain ⟨rfl, rfl⟩ := edge
    decide
  case isFalse notEdge =>
    split
    case isTrue large =>
      -- a dividend smaller than the divisor is its own remainder
      rw [Nat.mod_eq_of_lt (by omega)] at remainder
      rcases Int.natAbs_eq i1 with positive | negative
      · rw [Int.tmod_eq_of_lt (by omega) (by omega)]
      · have sign : i1.tmod u2 ≤ 0 := by
          rw [show i1 = -(-i1) by omega, Int.neg_tmod]
          have := Int.tmod_nonneg (u2 : ℤ) (by omega : 0 ≤ -i1)
          omega
        omega
    case isFalse small =>
      have divisor : toInt64 u2 = u2 := by
        unfold toInt64 wrapInt64
        omega
      rw [divisor]

/-- `mathMod_ui0` is the remainder of the truncated division: a negative divisor
is replaced by its magnitude, which gives the same remainder. -/
theorem mathMod_ui0_eq (range2 : InInt64 i2) :
    (mathMod_ui0 u1 i2 : ℤ) = (u1 : ℤ).tmod i2 := by
  unfold InInt64 at range2
  unfold mathMod_ui0
  split
  case isTrue negative =>
    have magnitude : ((toUint64 (wrapInt64 (-i2)) : ℕ) : ℤ) = -i2 := by
      unfold toUint64 wrapInt64
      omega
    rw [Int.natCast_mod, magnitude, ← Int.tmod_neg,
      Int.tmod_eq_emod_of_nonneg (Int.natCast_nonneg u1)]
  case isFalse nonnegative =>
    have divisor : ((toUint64 i2 : ℕ) : ℤ) = i2 := by
      unfold toUint64
      omega
    rw [Int.natCast_mod, divisor, Int.tmod_eq_emod_of_nonneg (Int.natCast_nonneg u1)]

end Div

/-- Three edges of integer division. `math.MinInt64 DIV -1` is `2^63`, but
`mathIntDiv_ii`, and the interpreter with it, return `math.MinInt64`;
`-math.MaxInt64 DIV math.MaxInt64` is `-1`, which `BIGINT UNSIGNED` does not
hold, but `mathIntDiv_iu0` returns `0`; `math.MaxInt64 DIV math.MinInt64` is `0`,
but `mathIntDiv_ui0` reports it out of range. -/
theorem int_div_helpers_miss_edges (newFromFloat : ℚ → Decimal) :
    (-2 ^ 63 : ℤ).tdiv (-1) = 2 ^ 63 ∧
      mathIntDiv_ii (-2 ^ 63) (-1) = .ok (some (.int64 (-2 ^ 63))) ∧
      integerDivideNumericWithError newFromFloat (.int64 (-2 ^ 63)) (.int64 (-1)) =
        .ok (some (.int64 (-2 ^ 63))) ∧
      (-(2 ^ 63 - 1) : ℤ).tdiv ((2 ^ 63 - 1 : ℕ) : ℤ) = -1 ∧
      mathIntDiv_iu0 (-(2 ^ 63 - 1)) (2 ^ 63 - 1) = .ok 0 ∧
      ((2 ^ 63 - 1 : ℕ) : ℤ).tdiv (-2 ^ 63) = 0 ∧
      mathIntDiv_ui0 (2 ^ 63 - 1) (-2 ^ 63) =
        .error (.dataOutOfRange ⟨"BIGINT UNSIGNED", 2 ^ 63 - 1, "DIV", -2 ^ 63⟩) := by
  refine ⟨by decide, by rfl, by rfl, by decide, by rfl, by decide, by rfl⟩

end Vitess.Evalengine
