import Mathlib.Data.List.Lex
import Mathlib.Data.Nat.Bitwise
import Mathlib.Order.Lattice

/-!
# Sort keys

The pieces from which a byte string that sorts like the value it stands for is
built, each with the order fact that makes it a sort key.

* `compareThen a b k` compares `a` and `b` three ways and falls through to `k`
  on a tie; a chain of them compares tuples lexicographically
  (`compareThen_nonpos_iff`).
* Or-ing a number below `2 ^ i` into a multiple of `2 ^ i` adds it
  (`or_eq_add_of_lt`), so fields shifted into place pack into one number.
* `encode width n` is the `width` low bytes of `n`, most significant first;
  numbers below `256 ^ width` compare as their bytes do (`map_encode_lt_iff`).
  Complementing every byte encodes `256 ^ width - 1 - n` (`map_xor_encode`),
  and flipping the top bit of the first byte adds `2 ^ 7` to its digit
  (`modifyHead_xor_encode`). An encoding splits into its high and low bytes
  (`encode_add`), and a multiple of `256 ^ width` has only zero low bytes
  (`encode_of_dvd`).
* Flipping the top bit of a `width + 1`-bit number adds `2 ^ width` modulo
  `2 ^ (width + 1)` (`xor_two_pow_eq`): it moves a two's complement number to
  the unsigned number whose order is the signed order.
-/

namespace Vitess.SortKey

/-! ## Three-way comparison chains -/

/-- `-1` if `a < b`, `1` if `b < a`, and `k` on a tie. -/
def compareThen {α : Type*} [LinearOrder α] (a b : α) (k : ℤ) : ℤ :=
  if a < b then -1 else if b < a then 1 else k

section compareThen

variable {α : Type*} [LinearOrder α] {a b : α} {k : ℤ}

theorem compareThen_nonpos_iff : compareThen a b k ≤ 0 ↔ a < b ∨ a = b ∧ k ≤ 0 := by
  unfold compareThen
  rcases lt_trichotomy a b with below | same | above
  · simp [below]
  · simp [same]
  · simp [above, not_lt.mpr above.le, above.ne']

theorem compareThen_eq_zero_iff : compareThen a b k = 0 ↔ a = b ∧ k = 0 := by
  unfold compareThen
  rcases lt_trichotomy a b with below | same | above
  · simp [below, below.ne]
  · simp [same]
  · simp [above, not_lt.mpr above.le, above.ne']

end compareThen

/-! ## Packing fields -/

theorem or_eq_add_of_lt {x b i : ℕ} (aligned : 2 ^ i ∣ x) (low : b < 2 ^ i) :
    x ||| b = x + b := by
  obtain ⟨a, rfl⟩ := aligned
  exact (Nat.two_pow_add_eq_or_of_lt low a).symm

/-- Numbers compare as their quotient by `r`, then their remainder. -/
theorem lt_iff_div_lt_or {n m r : ℕ} :
    n < m ↔ n / r < m / r ∨ n / r = m / r ∧ n % r < m % r := by
  have hn := Nat.div_add_mod n r
  have hm := Nat.div_add_mod m r
  constructor
  · intro lt
    rcases (Nat.div_le_div_right (c := r) lt.le).lt_or_eq with quotient | quotient
    · exact .inl quotient
    · rw [quotient] at hn
      exact .inr ⟨quotient, by omega⟩
  · rintro (quotient | ⟨quotient, remainder⟩)
    · exact Nat.lt_of_div_lt_div quotient
    · rw [quotient] at hn
      omega

/-- A number packed above a field below `r` is recovered by division. -/
theorem mul_add_div_mod {a x r : ℕ} (hx : x < r) : (a * r + x) / r = a ∧ (a * r + x) % r = x := by
  have positive : 0 < r := by omega
  constructor
  · rw [Nat.add_comm, Nat.add_mul_div_right _ _ positive, Nat.div_eq_of_lt hx, Nat.zero_add]
  · rw [Nat.add_comm, Nat.add_mul_mod_self_right, Nat.mod_eq_of_lt hx]

/-- Packed numbers compare as their upper parts, then their fields. -/
theorem mul_add_lt_mul_add_iff {a b x y r : ℕ} (hx : x < r) (hy : y < r) :
    a * r + x < b * r + y ↔ a < b ∨ a = b ∧ x < y := by
  obtain ⟨da, ma⟩ := mul_add_div_mod (a := a) hx
  obtain ⟨db, mb⟩ := mul_add_div_mod (a := b) hy
  rw [lt_iff_div_lt_or (r := r), da, ma, db, mb]

theorem mul_add_eq_mul_add_iff {a b x y r : ℕ} (hx : x < r) (hy : y < r) :
    a * r + x = b * r + y ↔ a = b ∧ x = y := by
  obtain ⟨da, ma⟩ := mul_add_div_mod (a := a) hx
  obtain ⟨db, mb⟩ := mul_add_div_mod (a := b) hy
  constructor
  · intro same
    constructor
    · rw [← da, same, db]
    · rw [← ma, same, mb]
  · rintro ⟨rfl, rfl⟩
    rfl

theorem toNat_or_of_dvd {a b : UInt64} {i : ℕ} (aligned : 2 ^ i ∣ a.toNat)
    (low : b.toNat < 2 ^ i) : (a ||| b).toNat = a.toNat + b.toNat := by
  rw [UInt64.toNat_or, or_eq_add_of_lt aligned low]

theorem toNat_shiftLeft_of_lt {a s : UInt64} {k : ℕ} (shift : s.toNat = k) (small : k < 64)
    (fits : a.toNat * 2 ^ k < 2 ^ 64) : (a <<< s).toNat = a.toNat * 2 ^ k := by
  rw [UInt64.toNat_shiftLeft, shift, Nat.mod_eq_of_lt small, Nat.shiftLeft_eq,
    Nat.mod_eq_of_lt fits]

/-! ## Bytes, most significant first -/

/-- The `width` low bytes of `n`, most significant first. -/
def encode : ℕ → ℕ → List UInt8
  | 0, _ => []
  | width + 1, n => UInt8.ofNat (n / 256 ^ width % 256) :: encode width n

@[simp] theorem length_encode : ∀ width n, (encode width n).length = width
  | 0, _ => rfl
  | width + 1, n => by simp [encode, length_encode width]

/-- The bytes of `n` are those of its low `width` bytes. -/
theorem encode_mod : ∀ width n, encode width (n % 256 ^ width) = encode width n
  | 0, _ => rfl
  | width + 1, n => by
    have top : n % 256 ^ (width + 1) / 256 ^ width % 256 = n / 256 ^ width % 256 := by
      rw [pow_succ, Nat.mod_mul_right_div_self, Nat.mod_mod]
    have rest : encode width (n % 256 ^ (width + 1)) = encode width n := by
      rw [← encode_mod width (n % _), Nat.mod_mod_of_dvd _ (pow_dvd_pow 256 (Nat.le_succ width)),
        encode_mod width n]
    rw [encode, encode, top, rest]

/-- The top byte of a number below `256 ^ (width + 1)` is its quotient by
`256 ^ width`. -/
theorem top_byte {width n : ℕ} (h : n < 256 ^ (width + 1)) :
    (UInt8.ofNat (n / 256 ^ width % 256)).toNat = n / 256 ^ width := by
  have below : n / 256 ^ width < 256 := by
    rw [Nat.div_lt_iff_lt_mul (Nat.pow_pos (by decide)), ← pow_succ']
    exact h
  rw [Nat.mod_eq_of_lt below, UInt8.toNat_ofNat', Nat.mod_eq_of_lt below]

/-- Bytes compare as the numbers they encode. -/
theorem map_encode_lt_iff : ∀ {width n m : ℕ}, n < 256 ^ width → m < 256 ^ width →
    ((encode width n).map UInt8.toNat < (encode width m).map UInt8.toNat ↔ n < m)
  | 0, n, m, hn, hm => by
    have zero : n = 0 ∧ m = 0 := by simp_all
    simp [encode, zero]
  | width + 1, n, m, hn, hm => by
    have tail := @map_encode_lt_iff width (n % 256 ^ width) (m % 256 ^ width)
      (Nat.mod_lt n (Nat.pow_pos (by decide))) (Nat.mod_lt m (Nat.pow_pos (by decide)))
    rw [encode_mod, encode_mod] at tail
    rw [encode, encode, List.map_cons, List.map_cons, List.cons_lt_cons_iff, top_byte hn,
      top_byte hm, tail]
    exact lt_iff_div_lt_or.symm

theorem encode_inj {width n m : ℕ} (hn : n < 256 ^ width) (hm : m < 256 ^ width) :
    encode width n = encode width m ↔ n = m := by
  constructor
  · intro same
    have notBelow : ¬ n < m := by
      rw [← map_encode_lt_iff hn hm, same]
      exact List.lt_irrefl _
    have notAbove : ¬ m < n := by
      rw [← map_encode_lt_iff hm hn, same]
      exact List.lt_irrefl _
    omega
  · rintro rfl
    rfl

/-- The bytes of `n` split at any width: the high bytes, then the low ones. -/
theorem encode_add (width low n : ℕ) :
    encode (width + low) n = encode width (n / 256 ^ low) ++ encode low n := by
  induction width with
  | zero => simp [encode]
  | succ width ih =>
    have digit : n / 256 ^ low / 256 ^ width = n / 256 ^ (width + low) := by
      rw [Nat.div_div_eq_div_mul, ← pow_add, Nat.add_comm low]
    rw [Nat.add_right_comm, encode, encode, ih, digit, List.cons_append]

@[simp] theorem encode_zero (width : ℕ) : encode width 0 = List.replicate width 0 := by
  induction width with
  | zero => rfl
  | succ width ih => simp [encode, ih, List.replicate_succ]

/-- A multiple of `256 ^ width` has only zero low bytes. -/
theorem encode_of_dvd {width n : ℕ} (aligned : 256 ^ width ∣ n) :
    encode width n = List.replicate width 0 := by
  rw [← encode_mod, Nat.mod_eq_zero_of_dvd aligned, encode_zero]

/-- Complementing every byte of a number's encoding encodes its complement. -/
theorem map_xor_encode : ∀ {width x : ℕ}, x < 256 ^ width →
    (encode width x).map (· ^^^ 255) = encode width (256 ^ width - 1 - x)
  | 0, _, _ => rfl
  | width + 1, x, below => by
    have positive : 0 < 256 ^ width := Nat.pow_pos (by decide)
    have top : x / 256 ^ width < 256 := by
      rw [Nat.div_lt_iff_lt_mul positive, ← pow_succ']
      exact below
    have low := Nat.mod_lt x positive
    have whole := Nat.div_add_mod' x (256 ^ width)
    have bounded : x / 256 ^ width * 256 ^ width ≤ 255 * 256 ^ width := Nat.mul_le_mul_right _ (by omega)
    have lowPart : 256 ^ width - 1 - x % 256 ^ width < 256 ^ width := by omega
    -- the complement's top digit is `255 - x / 256^width` and its low part `256^width - 1 - x % 256^width`
    have split : 256 ^ (width + 1) - 1 - x =
        256 ^ width - 1 - x % 256 ^ width + 256 ^ width * (255 - x / 256 ^ width) := by
      rw [pow_succ, Nat.mul_sub, Nat.mul_comm (256 ^ width) (x / 256 ^ width)]
      generalize x / 256 ^ width * 256 ^ width = scaled at *
      generalize 256 ^ width = unit at *
      omega
    have digit : (256 ^ (width + 1) - 1 - x) / 256 ^ width = 255 - x / 256 ^ width := by
      rw [split, Nat.add_mul_div_left _ _ positive, Nat.div_eq_of_lt lowPart, Nat.zero_add]
    have rest : (256 ^ (width + 1) - 1 - x) % 256 ^ width = 256 ^ width - 1 - x % 256 ^ width := by
      rw [split, Nat.add_mul_mod_self_left, Nat.mod_eq_of_lt lowPart]
    have byte : ∀ q < 256, UInt8.ofNat q ^^^ 255 = UInt8.ofNat (255 - q) := by decide +kernel
    rw [encode, encode, List.map_cons, digit, Nat.mod_eq_of_lt top,
      Nat.mod_eq_of_lt ((Nat.sub_le 255 _).trans_lt (by decide)), byte _ top,
      ← encode_mod width x, map_xor_encode low, ← rest, encode_mod]

/-- Flipping the top bit of the first byte adds `2 ^ 7` to the top digit,
modulo `256`. -/
theorem modifyHead_xor_encode {width x : ℕ} (below : x < 256 ^ (width + 1)) :
    (encode (width + 1) x).modifyHead (· ^^^ 128) =
      encode (width + 1) ((x + 128 * 256 ^ width) % 256 ^ (width + 1)) := by
  have positive : 0 < 256 ^ width := Nat.pow_pos (by decide)
  have top : x / 256 ^ width < 256 := by
    rw [Nat.div_lt_iff_lt_mul positive, ← pow_succ']
    exact below
  have digit : (x + 128 * 256 ^ width) % 256 ^ (width + 1) / 256 ^ width % 256 =
      (x / 256 ^ width + 128) % 256 := by
    rw [pow_succ, Nat.mod_mul_right_div_self, Nat.add_mul_div_right _ _ positive, Nat.mod_mod]
  have rest : (x + 128 * 256 ^ width) % 256 ^ (width + 1) % 256 ^ width = x % 256 ^ width := by
    rw [pow_succ, Nat.mod_mul_right_mod, Nat.add_mul_mod_self_right]
  have byte : ∀ q < 256, UInt8.ofNat q ^^^ 128 = UInt8.ofNat ((q + 128) % 256) := by decide +kernel
  rw [encode, encode, List.modifyHead_cons, digit, Nat.mod_eq_of_lt top, byte _ top,
    ← encode_mod width x, ← rest, encode_mod]

/-! ## The flipped top bit -/

theorem xor_two_pow_eq {x width : ℕ} (h : x < 2 ^ (width + 1)) :
    x ^^^ 2 ^ width = (x + 2 ^ width) % 2 ^ (width + 1) := by
  apply Nat.eq_of_testBit_eq
  intro i
  rw [Nat.testBit_xor, Nat.testBit_two_pow, Nat.testBit_mod_two_pow, Nat.add_comm x]
  rcases lt_trichotomy i width with below | rfl | above
  · rw [Nat.testBit_two_pow_add_gt below]
    simp [below.ne', Nat.lt_succ_of_lt below]
  · rw [Nat.testBit_two_pow_add_eq]
    simp
  · have high : x.testBit i = false :=
      Nat.testBit_lt_two_pow (lt_of_lt_of_le h (Nat.pow_le_pow_right (by decide) above))
    simp [high, above.ne, show ¬ i < width + 1 by omega]

theorem toNat_xor_top_bit (a : UInt64) :
    (a ^^^ (1 : UInt64) <<< 63).toNat = (a.toNat + 2 ^ 63) % 2 ^ 64 := by
  rw [UInt64.toNat_xor, show ((1 : UInt64) <<< 63).toNat = 2 ^ 63 by decide]
  exact xor_two_pow_eq a.toNat_lt

end Vitess.SortKey
