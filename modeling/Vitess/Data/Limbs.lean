import Mathlib.Data.Nat.Digits.Defs
import Mathlib.Data.Nat.ModEq
import Mathlib.Tactic.Ring

/-!
# Numbers as little-endian limbs

A list of limbs below a base `b`, the least significant first, stands for
`Nat.ofDigits b` of it. `mulAdd` multiplies such a number by one limb and adds
one, limb by limb from the lowest, each step keeping `(x * y + c) % b` and
carrying `(x * y + c) / b`: the limbs and the carry out are the number times
the limb plus the limb (`ofDigits_mulAdd`), and all of them stay below `b`
(`mulAdd_lt`).

`powLoop` raises to a power by repeated squaring, keeping every product modulo
`m` as fixed-width arithmetic does (`powLoop_eq`).
-/

namespace Vitess.Limbs

/-- The limbs of `xs * y + c` in base `b`, and the carry out of the top limb. -/
def mulAdd (b : ℕ) : List ℕ → ℕ → ℕ → List ℕ × ℕ
  | [], _, c => ([], c)
  | x :: xs, y, c =>
    let (zs, carry) := mulAdd b xs y ((x * y + c) / b)
    ((x * y + c) % b :: zs, carry)

/-- `p * x ^ n % m` by repeated squaring: the product takes the base at each odd
exponent, and the base is squared as the exponent is halved. -/
def powLoop (m x n p : ℕ) : ℕ :=
  if n > 0 then powLoop m (x * x % m) (n / 2) (if n % 2 ≠ 0 then p * x % m else p) else p
termination_by n
decreasing_by omega

variable {b : ℕ}

@[simp] theorem length_mulAdd : ∀ (xs : List ℕ) (y c : ℕ), (mulAdd b xs y c).1.length = xs.length
  | [], _, _ => rfl
  | _ :: xs, y, _ => by
    simp only [mulAdd, List.length_cons, length_mulAdd xs y]

/-- The limbs written and the carry out are the number times `y`, plus `c`. -/
theorem ofDigits_mulAdd : ∀ (xs : List ℕ) (y c : ℕ),
    Nat.ofDigits b (mulAdd b xs y c).1 + b ^ xs.length * (mulAdd b xs y c).2 = Nat.ofDigits b xs * y + c
  | [], _, c => by simp [mulAdd]
  | x :: xs, y, c => by
    have rest := ofDigits_mulAdd xs y ((x * y + c) / b)
    have split := Nat.mod_add_div (x * y + c) b
    simp only [mulAdd, Nat.ofDigits_cons, List.length_cons, pow_succ]
    calc (x * y + c) % b + b * Nat.ofDigits b (mulAdd b xs y ((x * y + c) / b)).1 +
          b ^ xs.length * b * (mulAdd b xs y ((x * y + c) / b)).2
        _ = (x * y + c) % b + b * (Nat.ofDigits b (mulAdd b xs y ((x * y + c) / b)).1 +
            b ^ xs.length * (mulAdd b xs y ((x * y + c) / b)).2) := by ring
        _ = (x * y + c) % b + b * (Nat.ofDigits b xs * y + (x * y + c) / b) := by rw [rest]
        _ = ((x * y + c) % b + b * ((x * y + c) / b)) + b * Nat.ofDigits b xs * y := by ring
        _ = (x + b * Nat.ofDigits b xs) * y + c := by rw [split]; ring

/-- A limb times a limb plus a limb fits in two limbs. -/
theorem mul_add_lt_mul_self {x y c : ℕ} (hx : x < b) (hy : y < b) (hc : c < b) : x * y + c < b * b := by
  have product : x * y ≤ (b - 1) * (b - 1) := Nat.mul_le_mul (by omega) (by omega)
  have square : (b - 1) * (b - 1) + (b - 1) < b * b := by
    rcases b with _ | b
    · omega
    · simp only [Nat.add_sub_cancel]
      nlinarith
  omega

/-- From limbs below `b`, `mulAdd` writes limbs below `b` and carries less than `b`. -/
theorem mulAdd_lt : ∀ {xs : List ℕ} {y c : ℕ}, (∀ x ∈ xs, x < b) → y < b → c < b →
    (∀ z ∈ (mulAdd b xs y c).1, z < b) ∧ (mulAdd b xs y c).2 < b
  | [], _, _, _, _, hc => ⟨by simp [mulAdd], hc⟩
  | x :: xs, y, c, limbs, hy, hc => by
    have hx : x < b := limbs x (List.mem_cons_self ..)
    have carry : (x * y + c) / b < b := (Nat.div_lt_iff_lt_mul (by omega)).mpr (mul_add_lt_mul_self hx hy hc)
    obtain ⟨rest, top⟩ := mulAdd_lt (fun z member => limbs z (List.mem_cons_of_mem x member)) hy carry
    refine ⟨?_, top⟩
    intro z member
    simp only [mulAdd, List.mem_cons] at member
    rcases member with rfl | member
    · exact Nat.mod_lt _ (by omega)
    · exact rest z member

/-- Repeated squaring computes the power, modulo `m`. -/
theorem powLoop_eq (m x n p : ℕ) (hp : p < m) : powLoop m x n p = p * x ^ n % m := by
  induction n using Nat.strong_induction_on generalizing x p with
  | _ n ih =>
    rw [powLoop]
    by_cases positive : n > 0
    · rw [if_pos positive]
      -- the squared base stands for two factors of `x` at each halving
      have squares : (x * x % m) ^ (n / 2) ≡ x ^ (2 * (n / 2)) [MOD m] := by
        rw [pow_mul, sq]
        exact (Nat.mod_modEq (x * x) m).pow _
      have split : n = 2 * (n / 2) + n % 2 := (Nat.div_add_mod n 2).symm
      have half : n / 2 < n := by omega
      by_cases odd : n % 2 ≠ 0
      · -- the odd exponent takes one factor into the product
        have step : p * x % m * (x * x % m) ^ (n / 2) % m = p * x * x ^ (2 * (n / 2)) % m :=
          (Nat.mod_modEq (p * x) m).mul squares
        rw [if_pos odd, ih (n / 2) half _ _ (Nat.mod_lt _ (by omega)), step]
        congr 1
        conv_rhs => rw [split, show n % 2 = 1 by omega, pow_succ]
        ring
      · have step : p * (x * x % m) ^ (n / 2) % m = p * x ^ (2 * (n / 2)) % m := squares.mul_left p
        rw [if_neg odd, ih (n / 2) half _ _ hp, step]
        conv_rhs => rw [split, show n % 2 = 0 by omega, Nat.add_zero]
    · rw [if_neg positive, show n = 0 by omega, pow_zero, Nat.mul_one, Nat.mod_eq_of_lt hp]

end Vitess.Limbs
