import Mathlib.Algebra.Order.Group.Nat
import Mathlib.Data.List.Basic

/-!
# Little-endian fixed-width integers

A fixed-width unsigned integer written least significant byte first, as
`encoding/binary` writes with `binary.LittleEndian`, and the reader that takes
that many bytes off the front of a buffer. Reading back what was written gives
the number modulo `256 ^ width` and leaves an arbitrary suffix exactly as it was
(`read_encode_append`).
-/

namespace Vitess.LittleEndian

/-- The `width` low bytes of `n`, least significant first. -/
def encode : ℕ → ℕ → List UInt8
  | 0, _ => []
  | width + 1, n => UInt8.ofNat (n % 256) :: encode width (n / 256)

/-- The number whose bytes, least significant first, are `bytes`. -/
def decode : List UInt8 → ℕ
  | [] => 0
  | byte :: rest => byte.toNat + 256 * decode rest

@[simp] theorem length_encode : ∀ width n, (encode width n).length = width
  | 0, _ => rfl
  | width + 1, n => by simp [encode, length_encode width]

theorem decode_encode : ∀ width n, decode (encode width n) = n % 256 ^ width
  | 0, n => by simp [encode, decode, Nat.mod_one]
  | width + 1, n => by
    have low : (UInt8.ofNat (n % 256)).toNat = n % 256 := by
      rw [UInt8.toNat_ofNat']
      exact Nat.mod_mod_of_dvd _ (by decide)
    rw [encode, decode, low, decode_encode width, pow_succ', Nat.mod_mul]

/-- `width` bytes hold a number below `256 ^ width`. -/
theorem decode_lt : ∀ bytes : List UInt8, decode bytes < 256 ^ bytes.length
  | [] => by simp [decode]
  | byte :: rest => by
    have low := byte.toNat_lt
    have high := decode_lt rest
    rw [decode, List.length_cons, pow_succ']
    omega

/-- Take `width` bytes off the front: the number they encode and what follows, or
nothing when fewer remain. -/
def read (width : ℕ) (data : List UInt8) : Option (ℕ × List UInt8) :=
  if width ≤ data.length then some (decode (data.take width), data.drop width) else none

/-- Reading what was written gives the number modulo `256 ^ width`, whatever
follows it. -/
theorem read_encode_append (width n : ℕ) (rest : List UInt8) :
    read width (encode width n ++ rest) = some (n % 256 ^ width, rest) := by
  have fits : width ≤ (encode width n ++ rest).length := by simp
  rw [read, if_pos fits, List.take_left' (length_encode width n),
    List.drop_left' (length_encode width n), decode_encode]

end Vitess.LittleEndian
