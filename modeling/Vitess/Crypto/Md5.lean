import Mathlib.Data.List.Basic
import Mathlib.Algebra.Group.Nat.Defs

/-!
# MD5

The message digest of RFC 1321, as Go's `crypto/md5.Sum` computes it: the
message is padded with a one bit, zeros, and its bit length as a little-endian
64-bit word to a multiple of 64 bytes; each 64-byte block runs the 64 steps of
the four rounds on the state `(A, B, C, D)` and adds the result into it; the
digest is the final state in little-endian bytes.
-/

namespace Vitess.Crypto.Md5

/-- The per-step constants `⌊|sin (i + 1)| · 2^32⌋`. -/
def constants : List UInt32 :=
  [0xd76aa478, 0xe8c7b756, 0x242070db, 0xc1bdceee, 0xf57c0faf, 0x4787c62a, 0xa8304613,
   0xfd469501, 0x698098d8, 0x8b44f7af, 0xffff5bb1, 0x895cd7be, 0x6b901122, 0xfd987193,
   0xa679438e, 0x49b40821, 0xf61e2562, 0xc040b340, 0x265e5a51, 0xe9b6c7aa, 0xd62f105d,
   0x02441453, 0xd8a1e681, 0xe7d3fbc8, 0x21e1cde6, 0xc33707d6, 0xf4d50d87, 0x455a14ed,
   0xa9e3e905, 0xfcefa3f8, 0x676f02d9, 0x8d2a4c8a, 0xfffa3942, 0x8771f681, 0x6d9d6122,
   0xfde5380c, 0xa4beea44, 0x4bdecfa9, 0xf6bb4b60, 0xbebfbc70, 0x289b7ec6, 0xeaa127fa,
   0xd4ef3085, 0x04881d05, 0xd9d4d039, 0xe6db99e5, 0x1fa27cf8, 0xc4ac5665, 0xf4292244,
   0x432aff97, 0xab9423a7, 0xfc93a039, 0x655b59c3, 0x8f0ccc92, 0xffeff47d, 0x85845dd1,
   0x6fa87e4f, 0xfe2ce6e0, 0xa3014314, 0x4e0811a1, 0xf7537e82, 0xbd3af235, 0x2ad7d2bb,
   0xeb86d391]

/-- The rotation of each step: four per round, each used four times. -/
def shift (i : ℕ) : UInt32 :=
  match i / 16, i % 4 with
  | 0, 0 => 7 | 0, 1 => 12 | 0, 2 => 17 | 0, _ => 22
  | 1, 0 => 5 | 1, 1 => 9 | 1, 2 => 14 | 1, _ => 20
  | 2, 0 => 4 | 2, 1 => 11 | 2, 2 => 16 | 2, _ => 23
  | _, 0 => 6 | _, 1 => 10 | _, 2 => 15 | _, _ => 21

/-- Rotate a 32-bit word left. -/
def rotateLeft (x s : UInt32) : UInt32 :=
  (x <<< s) ||| (x >>> (32 - s))

/-- The state `(A, B, C, D)`. -/
structure State where
  a : UInt32
  b : UInt32
  c : UInt32
  d : UInt32
  deriving DecidableEq, Repr

/-- The initial state. -/
def init : State :=
  ⟨0x67452301, 0xefcdab89, 0x98badcfe, 0x10325476⟩

/-- The little-endian word of four bytes. -/
def word (bytes : List UInt8) : UInt32 :=
  bytes.foldr (fun byte acc => acc <<< 8 ||| byte.toUInt32) 0

/-- The sixteen words of a 64-byte block. -/
def words (block : List UInt8) : List UInt32 :=
  (List.range 16).map fun j => word ((block.drop (4 * j)).take 4)

/-- Step `i` of a block: the round's function and message word, then the
rotation into `B`. -/
def step (m : List UInt32) (s : State) (i : ℕ) : State :=
  let (f, g) :=
    match i / 16 with
    | 0 => ((s.b &&& s.c) ||| (~~~s.b &&& s.d), i)
    | 1 => ((s.d &&& s.b) ||| (~~~s.d &&& s.c), (5 * i + 1) % 16)
    | 2 => (s.b ^^^ s.c ^^^ s.d, (3 * i + 5) % 16)
    | _ => (s.c ^^^ (s.b ||| ~~~s.d), (7 * i) % 16)
  let f := f + s.a + constants.getD i 0 + m.getD g 0
  ⟨s.d, s.b + rotateLeft f (shift i), s.b, s.c⟩

/-- One block added into the state. -/
def compress (s : State) (block : List UInt8) : State :=
  let m := words block
  let t := (List.range 64).foldl (step m) s
  ⟨s.a + t.a, s.b + t.b, s.c + t.c, s.d + t.d⟩

/-- The eight little-endian bytes of the bit length. -/
def lengthBytes (n : ℕ) : List UInt8 :=
  (List.range 8).map fun i => UInt8.ofNat (8 * n / 256 ^ i % 256)

/-- The padded message. -/
def pad (message : List UInt8) : List UInt8 :=
  message ++ 0x80 :: List.replicate ((55 - message.length % 64) % 64) 0 ++ lengthBytes message.length

/-- The 64-byte blocks of a padded message, `fuel` of them at most. -/
def blocks : ℕ → List UInt8 → List (List UInt8)
  | 0, _ => []
  | _ + 1, [] => []
  | fuel + 1, bytes => bytes.take 64 :: blocks fuel (bytes.drop 64)

/-- The little-endian bytes of a word. -/
def wordBytes (w : UInt32) : List UInt8 :=
  [w.toUInt8, (w >>> 8).toUInt8, (w >>> 16).toUInt8, (w >>> 24).toUInt8]

/-- `md5.Sum`. -/
def sum (message : List UInt8) : List UInt8 :=
  let padded := pad message
  let s := (blocks padded.length padded).foldl compress init
  wordBytes s.a ++ wordBytes s.b ++ wordBytes s.c ++ wordBytes s.d

/-- The test suite of RFC 1321: the empty message and "abc". -/
example : sum [] = [0xd4, 0x1d, 0x8c, 0xd9, 0x8f, 0x00, 0xb2, 0x04, 0xe9, 0x80, 0x09, 0x98,
    0xec, 0xf8, 0x42, 0x7e] := by
  decide +kernel

example : sum [0x61, 0x62, 0x63] = [0x90, 0x01, 0x50, 0x98, 0x3c, 0xd2, 0x4f, 0xb0, 0xd6, 0x96,
    0x3f, 0x7d, 0x28, 0xe1, 0x7f, 0x72] := by
  decide +kernel

end Vitess.Crypto.Md5
