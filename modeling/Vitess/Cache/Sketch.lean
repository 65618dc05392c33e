import Vitess.Data.Radix
import Vitess.Go.Int64
import Mathlib.Algebra.Ring.Int.Defs
import Mathlib.Data.Int.ConditionallyCompleteOrder
import Mathlib.Order.ConditionallyCompleteLattice.Basic
import Mathlib.Tactic.NormNum

/-!
# The frequency sketch of the cache

`CountMinSketch` in `go/cache/theine/sketch.go` estimates how often a key was seen,
for the admission policy of the TinyLFU cache. Its table packs sixteen 4-bit counters
into each `uint64` word. `Add` raises the four counters of a hash (four words of one
eight-word block) unless a counter is at fifteen, and once `SampleSize` additions have
been counted it ages the table by `reset`, which shifts every word right by one.
`Estimate` is the least of the four counters.

* Whatever mix of `Add` and `EnsureCapacity` calls a sketch from `NewCountMinSketch`
  goes through, every counter `Add` and `Estimate` touch lies inside the table, and
  fewer than `SampleSize` additions are pending (`sketch_stays_in_bounds`).
* The sketch never underestimates, up to its aging: the estimate of a hash is at
  least the count that rises by one (up to fifteen) with each `Add` of the hash and
  halves at each reset (`estimate_never_underestimates`). Without a reset, that is the
  number of times the hash was added, up to fifteen.
* `reset` shifts whole words, so each counter gets the low bit of the counter above
  it as its top bit: a counter at zero under a counter at one becomes eight
  (`reset_shifts_counters`).

The counters are digits in radix sixteen (`Vitess.Radix`). Go's slice indexing
becomes `List.getD` and `List.modify`, which agree with it inside the table, and
`sketch_stays_in_bounds` shows that the sketch never indexes outside.
-/

namespace Vitess.Theine

open Radix

/-- `CountMinSketch`; the `uint` fields are `uint64`s. -/
structure CountMinSketch where
  Table : List UInt64
  Additions : UInt64
  SampleSize : UInt64
  BlockMask : UInt64
  deriving DecidableEq, Repr

namespace CountMinSketch

/-- `spread`. -/
def spread (h : UInt64) : UInt64 :=
  let h := h ^^^ (h >>> 17)
  let h := h * 0xed5ad4bb
  let h := h ^^^ (h >>> 11)
  let h := h * 0xac4c1b51
  h ^^^ (h >>> 15)

/-- `rehash`. -/
def rehash (h : UInt64) : UInt64 :=
  let h := h * 0x31848bab
  h ^^^ (h >>> 14)

/-- `indexOf`: the word of counter `offset` of a hash within its block, and the bit
offset of the counter in that word. -/
def indexOf (h block : UInt64) (offset : UInt8) : UInt64 × UInt64 :=
  let counterHash : UInt64 := h + (1 + offset).toUInt64 * (h >>> 32)
  let index : UInt64 := block + (counterHash &&& (1 : UInt64)) + (offset <<< (1 : UInt8)).toUInt64
  (index, (counterHash &&& (0xF : UInt64)) <<< (2 : UInt64))

/-- `s.Table[index]`. -/
def word (s : CountMinSketch) (index : UInt64) : UInt64 :=
  s.Table.getD index.toNat 0

/-- `inc`: raise the counter at bit `offset` of word `index` unless it is at fifteen. -/
def inc (s : CountMinSketch) (index offset : UInt64) : CountMinSketch × Bool :=
  let mask : UInt64 := 0xF <<< offset
  if s.word index &&& mask ≠ mask then
    ({ s with Table := s.Table.modify index.toNat (· + 1 <<< offset) }, true)
  else (s, false)

/-- `reset`: halve every word and the number of additions. -/
def reset (s : CountMinSketch) : CountMinSketch :=
  { s with Table := s.Table.map fun w : UInt64 => w >>> (1 : UInt64),
           Additions := s.Additions >>> (1 : UInt64) }

/-- `s.Additions += 1`. -/
def countAddition (s : CountMinSketch) : CountMinSketch :=
  { s with Additions := s.Additions + 1 }

/-- `Add`: raise the four counters of `h`; report whether the table was aged. -/
def add (s : CountMinSketch) (h : UInt64) : CountMinSketch × Bool :=
  let hn := spread h
  let block : UInt64 := (hn &&& s.BlockMask) <<< (3 : UInt64)
  let hc := rehash h
  let slot0 := indexOf hc block 0
  let slot1 := indexOf hc block 1
  let slot2 := indexOf hc block 2
  let slot3 := indexOf hc block 3
  let step0 := s.inc slot0.1 slot0.2
  let step1 := step0.1.inc slot1.1 slot1.2
  let step2 := step1.1.inc slot2.1 slot2.2
  let step3 := step2.1.inc slot3.1 slot3.2
  let added := step3.2 || (step2.2 || (step1.2 || step0.2))
  if added then
    let counted := step3.1.countAddition
    if counted.Additions = counted.SampleSize then (counted.reset, true) else (counted, false)
  else (step3.1, false)

/-- `count`: the counter `offset` of a hash. -/
def count (s : CountMinSketch) (h block : UInt64) (offset : UInt8) : UInt64 :=
  let slot := indexOf h block offset
  (s.word slot.1 >>> slot.2) &&& 0xF

/-- `Estimate`: the least of the four counters of `h`. -/
def estimate (s : CountMinSketch) (h : UInt64) : UInt64 :=
  let hn := spread h
  let block : UInt64 := (hn &&& s.BlockMask) <<< (3 : UInt64)
  let hc := rehash h
  let m := min (s.count hc block 0) 100
  let m := min (s.count hc block 1) m
  let m := min (s.count hc block 2) m
  min (s.count hc block 3) m

/-- `next2Power`: the least power of two at or above `x`, by smearing the top bit of
`x - 1` into every lower bit. -/
def next2Power (x : UInt64) : UInt64 :=
  let x := x - 1
  let x := x ||| (x >>> 1)
  let x := x ||| (x >>> 2)
  let x := x ||| (x >>> 4)
  let x := x ||| (x >>> 8)
  let x := x ||| (x >>> 16)
  let x := x ||| (x >>> 32)
  x + 1

/-- `EnsureCapacity`: a fresh table for at least `size` counters of words, unless the
table already has as many words; `int(size)` is Go's signed reading of the `uint`. -/
def ensureCapacity (s : CountMinSketch) (size : UInt64) : CountMinSketch :=
  if (s.Table.length : ℤ) ≥ Go.toInt64 size.toNat then s
  else
    let size := if size < 16 then 16 else size
    let newSize := next2Power size
    let table := List.replicate newSize.toNat 0
    { Table := table
      SampleSize := 10 * size
      BlockMask := UInt64.ofInt (((table.length >>> 3 : ℕ) : ℤ) - 1)
      Additions := 0 }

end CountMinSketch

/-- `NewCountMinSketch`. -/
def newCountMinSketch : CountMinSketch :=
  CountMinSketch.ensureCapacity ⟨[], 0, 0, 0⟩ 16

example : newCountMinSketch.Table.length = 16 ∧ newCountMinSketch.SampleSize = 160 ∧
    newCountMinSketch.BlockMask = 1 := by decide

/-! ### Counters in a word

The counter at bit offset `4 * j` of a word is its `j`-th digit in radix sixteen. -/

/-- A counter boundary of a word: bit offset `4 * j` for one of its sixteen counters. -/
def Aligned (offset : UInt64) : Prop :=
  ∃ j < 16, offset.toNat = 4 * j

theorem toNat_counter {w offset : UInt64} {j : ℕ} (inWord : j < 16) (aligned : offset.toNat = 4 * j) :
    ((w >>> offset) &&& 0xF).toNat = digit 16 w.toNat j := by
  have shift : offset.toNat % 64 = 4 * j := by omega
  rw [UInt64.toNat_and, UInt64.toNat_shiftRight, shift, Nat.shiftRight_eq_div_pow,
    show (0xF : UInt64).toNat = 2 ^ 4 - 1 from rfl, Nat.and_two_pow_sub_one_eq_mod, pow_mul]
  rfl

/-- Masking four bits at `s` keeps the digit there. -/
theorem and_fifteen_shiftLeft (x s : ℕ) : x &&& 15 <<< s = ((x >>> s) % 16) <<< s := by
  apply Nat.eq_of_testBit_eq
  intro i
  rw [Nat.testBit_and, Nat.testBit_shiftLeft, Nat.testBit_shiftLeft,
    show (16 : ℕ) = 2 ^ 4 from rfl, Nat.testBit_mod_two_pow, Nat.testBit_shiftRight,
    show (15 : ℕ) = 2 ^ 4 - 1 from rfl, Nat.testBit_two_pow_sub_one]
  by_cases above : s ≤ i
  · have back : s + (i - s) = i := by omega
    simp [above, back, Bool.and_comm]
  · simp [above]

/-- `inc`'s test: the mask matches exactly when the counter is at fifteen. -/
theorem counter_full_iff {w offset : UInt64} {j : ℕ} (inWord : j < 16)
    (aligned : offset.toNat = 4 * j) :
    w &&& 0xF <<< offset = 0xF <<< offset ↔ digit 16 w.toNat j = 15 := by
  have shift : offset.toNat % 64 = 4 * j := by omega
  have unit : 0 < 2 ^ (4 * j) := Nat.pow_pos (by decide)
  have fits : 15 <<< (4 * j) < 2 ^ 64 := by
    rw [Nat.shiftLeft_eq]
    calc 15 * 2 ^ (4 * j) < 16 * 2 ^ (4 * j) := Nat.mul_lt_mul_of_pos_right (by decide) unit
      _ = 2 ^ (4 * j + 4) := by rw [pow_add, Nat.mul_comm]; norm_num
      _ ≤ 2 ^ 64 := Nat.pow_le_pow_right (by decide) (by omega)
  have maskValue : ((0xF : UInt64) <<< offset).toNat = 15 <<< (4 * j) := by
    rw [UInt64.toNat_shiftLeft, shift, show (0xF : UInt64).toNat = 15 from rfl, Nat.mod_eq_of_lt fits]
  rw [← UInt64.toNat_inj, UInt64.toNat_and, maskValue, and_fifteen_shiftLeft, Nat.shiftLeft_eq,
    Nat.shiftLeft_eq, Nat.mul_right_cancel_iff unit, Nat.shiftRight_eq_div_pow, pow_mul]
  rfl

/-- Adding `1 << offset` under a counter below fifteen adds `16 ^ j` without wrapping. -/
theorem toNat_add_counter {w offset : UInt64} {j : ℕ} (inWord : j < 16)
    (aligned : offset.toNat = 4 * j) (room : digit 16 w.toNat j < 15) :
    (w + 1 <<< offset).toNat = w.toNat + 16 ^ j := by
  have shift : offset.toNat % 64 = 4 * j := by omega
  have below : w.toNat < 16 ^ 16 := w.toNat_lt
  have step : ((1 : UInt64) <<< offset).toNat = 16 ^ j := by
    have small : 16 ^ j < 2 ^ 64 := (Nat.pow_lt_pow_right (by decide) inWord).trans_eq (by norm_num)
    rw [UInt64.toNat_shiftLeft, shift, show (1 : UInt64).toNat = 1 from rfl, Nat.shiftLeft_eq,
      Nat.one_mul, pow_mul, show (2 : ℕ) ^ 4 = 16 by norm_num, Nat.mod_eq_of_lt small]
  rw [UInt64.toNat_add, step, Nat.mod_eq_of_lt]
  exact (add_pow_lt (by omega) below inWord).trans_eq (by norm_num)

/-! ### Counters of the table -/

/-- The counter at bit offset `slot.2` of word `slot.1`, as `count` reads it. -/
def counterAt (table : List UInt64) (slot : UInt64 × UInt64) : ℕ :=
  ((table.getD slot.1.toNat 0 >>> slot.2) &&& 0xF).toNat

/-- A slot names a counter of the table: a word inside it, at a counter boundary. -/
def Slot (table : List UInt64) (slot : UInt64 × UInt64) : Prop :=
  slot.1.toNat < table.length ∧ Aligned slot.2

theorem counterAt_le (table : List UInt64) (slot : UInt64 × UInt64) : counterAt table slot ≤ 15 := by
  unfold counterAt
  rw [UInt64.toNat_and]
  exact Nat.and_le_right

/-- Counters are read only through their words: a slot's reading depends on its word. -/
theorem counterAt_of_getD {table table' : List UInt64} {slot : UInt64 × UInt64}
    (same : table'.getD slot.1.toNat 0 = table.getD slot.1.toNat 0) :
    counterAt table' slot = counterAt table slot := by
  unfold counterAt
  rw [same]

namespace CountMinSketch

section Inc

variable {s : CountMinSketch} {index offset : UInt64}

@[simp] theorem inc_Additions (s : CountMinSketch) (index offset : UInt64) :
    (s.inc index offset).1.Additions = s.Additions := by
  simp only [inc]; split <;> rfl

@[simp] theorem inc_SampleSize (s : CountMinSketch) (index offset : UInt64) :
    (s.inc index offset).1.SampleSize = s.SampleSize := by
  simp only [inc]; split <;> rfl

@[simp] theorem inc_BlockMask (s : CountMinSketch) (index offset : UInt64) :
    (s.inc index offset).1.BlockMask = s.BlockMask := by
  simp only [inc]; split <;> rfl

@[simp] theorem length_inc (s : CountMinSketch) (index offset : UInt64) :
    (s.inc index offset).1.Table.length = s.Table.length := by
  simp only [inc]; split <;> simp

/-- `inc` raises its own counter, up to fifteen. -/
theorem counterAt_inc_self (slot : Slot s.Table (index, offset)) :
    counterAt (s.inc index offset).1.Table (index, offset) =
      min 15 (counterAt s.Table (index, offset) + 1) := by
  obtain ⟨inTable, j, inWord, aligned⟩ := slot
  dsimp only at inTable aligned
  have reading : ∀ table : List UInt64,
      counterAt table (index, offset) = digit 16 (table.getD index.toNat 0).toNat j :=
    fun table => toNat_counter inWord aligned
  rw [reading, reading]
  simp only [inc]
  split_ifs with notFull
  · -- the counter had room: the word gains `16 ^ j`
    have room : digit 16 (s.word index).toNat j < 15 := by
      have := digit_lt (b := 16) (w := (s.word index).toNat) (j := j) (by decide)
      have := (not_congr (counter_full_iff (w := s.word index) inWord aligned)).mp notFull
      omega
    have raised : (s.Table.modify index.toNat (· + 1 <<< offset)).getD index.toNat 0 =
        s.word index + 1 <<< offset := by
      simp [word, List.getD_eq_getElem?_getD, inTable]
    rw [raised, toNat_add_counter inWord aligned room,
      digit_add_pow_self (show digit 16 (s.word index).toNat j + 1 < 16 by omega)]
    unfold word at room ⊢
    omega
  · have full := (counter_full_iff inWord aligned).mp (not_not.mp notFull)
    simp only [word] at full
    rw [full]
    omega

/-- `inc` leaves every other counter as it was. -/
theorem counterAt_inc_of_ne (slot : Slot s.Table (index, offset)) {other : UInt64 × UInt64}
    (otherAligned : Aligned other.2) (different : other ≠ (index, offset)) :
    counterAt (s.inc index offset).1.Table other = counterAt s.Table other := by
  obtain ⟨inTable, j, inWord, aligned⟩ := slot
  dsimp only at inTable aligned
  simp only [inc]
  split_ifs with notFull
  · by_cases sameWord : other.1 = index
    · -- another counter of the same word: a different digit
      obtain ⟨j', inWord', aligned'⟩ := otherAligned
      have otherDigit : j' ≠ j := by
        intro same
        have sameOffset : other.2 = offset := UInt64.toNat_inj.mp (by omega)
        exact different (Prod.ext sameWord sameOffset)
      have room : digit 16 (s.word index).toNat j < 15 := by
        have := digit_lt (b := 16) (w := (s.word index).toNat) (j := j) (by decide)
        have := (not_congr (counter_full_iff (w := s.word index) inWord aligned)).mp notFull
        omega
      have raised : (s.Table.modify index.toNat (· + 1 <<< offset)).getD other.1.toNat 0 =
          s.word index + 1 <<< offset := by
        simp [word, List.getD_eq_getElem?_getD, inTable, sameWord]
      unfold counterAt
      rw [raised, toNat_counter inWord' aligned', toNat_counter inWord' aligned',
        toNat_add_counter inWord aligned room, digit_add_pow_of_ne (by omega) otherDigit, sameWord]
      rfl
    · apply counterAt_of_getD
      have apart : index.toNat ≠ other.1.toNat := fun same => sameWord (UInt64.toNat_inj.mp same).symm
      simp [List.getD_eq_getElem?_getD, apart]
  · rfl

/-- `inc` lowers no counter. -/
theorem counterAt_le_inc (slot : Slot s.Table (index, offset)) {other : UInt64 × UInt64}
    (otherAligned : Aligned other.2) :
    counterAt s.Table other ≤ counterAt (s.inc index offset).1.Table other := by
  by_cases same : other = (index, offset)
  · rw [same, counterAt_inc_self slot]
    have := counterAt_le s.Table (index, offset)
    omega
  · rw [counterAt_inc_of_ne slot otherAligned same]

end Inc

/-! ### Aging -/

@[simp] theorem length_reset (s : CountMinSketch) : s.reset.Table.length = s.Table.length := by
  simp [reset]

/-- `reset` halves each counter and gives it the low bit of the counter above as its top
bit; the top counter of a word gets a zero. -/
theorem counterAt_reset (s : CountMinSketch) {index offset : UInt64} {j : ℕ} (inWord : j < 16)
    (aligned : offset.toNat = 4 * j) :
    counterAt s.reset.Table (index, offset) =
      counterAt s.Table (index, offset) / 2 + 8 * (digit 16 (s.word index).toNat (j + 1) % 2) := by
  have shifted : s.reset.Table.getD index.toNat 0 = s.word index >>> (1 : UInt64) := by
    simp only [reset, word, List.getD_eq_getElem?_getD, List.getElem?_map]
    cases s.Table[index.toNat]? <;> rfl
  have halved : (s.word index >>> (1 : UInt64)).toNat = (s.word index).toNat / 2 := by
    rw [UInt64.toNat_shiftRight, Nat.shiftRight_eq_div_pow]
    rfl
  unfold counterAt
  rw [shifted, toNat_counter inWord aligned, toNat_counter inWord aligned, halved,
    digit_div_two (by decide)]
  rfl

theorem half_le_counterAt_reset (s : CountMinSketch) {slot : UInt64 × UInt64} (aligned : Aligned slot.2) :
    counterAt s.Table slot / 2 ≤ counterAt s.reset.Table slot := by
  obtain ⟨j, inWord, atBoundary⟩ := aligned
  rw [counterAt_reset s inWord atBoundary]
  exact Nat.le_add_right _ _

/-! ### The four counters of a hash -/

/-- The four counters of `h`, which `Add` raises and `Estimate` reads. -/
def slots (s : CountMinSketch) (h : UInt64) : List (UInt64 × UInt64) :=
  let block : UInt64 := (spread h &&& s.BlockMask) <<< (3 : UInt64)
  [indexOf (rehash h) block 0, indexOf (rehash h) block 1, indexOf (rehash h) block 2,
    indexOf (rehash h) block 3]

/-- `indexOf` always lands on a counter boundary. -/
theorem aligned_indexOf (hc block : UInt64) (k : UInt8) : Aligned (indexOf hc block k).2 := by
  refine ⟨(hc + (1 + k).toUInt64 * (hc >>> 32)).toNat % 16, Nat.mod_lt _ (by decide), ?_⟩
  simp only [indexOf]
  rw [UInt64.toNat_shiftLeft, UInt64.toNat_and, show (0xF : UInt64).toNat = 2 ^ 4 - 1 from rfl,
    Nat.and_two_pow_sub_one_eq_mod, Nat.shiftLeft_eq]
  have small : (hc + (1 + k).toUInt64 * (hc >>> 32)).toNat % 2 ^ 4 * 2 ^ ((2 : UInt64).toNat % 64) < 2 ^ 64 := by
    have := Nat.mod_lt (hc + (1 + k).toUInt64 * (hc >>> 32)).toNat (show 0 < 2 ^ 4 by decide)
    simp only [show (2 : UInt64).toNat % 64 = 2 from rfl]
    omega
  rw [Nat.mod_eq_of_lt small, show (2 : UInt64).toNat % 64 = 2 from rfl]
  omega

/-- Every counter a sketch reads for a hash sits on a counter boundary. -/
theorem aligned_of_mem_slots {s : CountMinSketch} {h : UInt64} {slot : UInt64 × UInt64}
    (member : slot ∈ s.slots h) : Aligned slot.2 := by
  simp only [slots, List.mem_cons, List.mem_nil_iff, or_false] at member
  rcases member with rfl | rfl | rfl | rfl <;> exact aligned_indexOf _ _ _

/-- The counters of a block lie in its eight words. -/
theorem slot_indexOf {table : List UInt64} {hc block : UInt64} {k : UInt8} (small : k.toNat ≤ 3)
    (blockFits : block.toNat + 8 ≤ table.length) (blockSmall : block.toNat + 8 < 2 ^ 64) :
    Slot table (indexOf hc block k) := by
  have bit : (hc + (1 + k).toUInt64 * (hc >>> 32) &&& (1 : UInt64)).toNat ≤ 1 := by
    rw [UInt64.toNat_and]
    exact Nat.and_le_right
  have pair : ((k <<< (1 : UInt8)).toUInt64).toNat = 2 * k.toNat := by
    rw [UInt8.toNat_toUInt64, UInt8.toNat_shiftLeft, show (1 : UInt8).toNat % 8 = 1 from rfl,
      Nat.shiftLeft_eq, pow_one]
    omega
  refine ⟨?_, aligned_indexOf hc block k⟩
  simp only [indexOf]
  rw [UInt64.toNat_add, UInt64.toNat_add, pair]
  omega

/-- What a sketch must keep for its indexing to stay inside the table and for it to age
in time. -/
structure WellFormed (s : CountMinSketch) : Prop where
  room : 16 ≤ s.Table.length
  fits : s.Table.length ≤ 2 ^ 63
  blockMask : s.BlockMask.toNat = s.Table.length / 8 - 1
  pending : s.Additions < s.SampleSize

/-- In a well-formed sketch every counter of every hash lies inside the table. -/
theorem slot_of_wellFormed {s : CountMinSketch} (wf : s.WellFormed) (h : UInt64) :
    ∀ slot ∈ s.slots h, Slot s.Table slot := by
  have masked : (spread h &&& s.BlockMask).toNat ≤ s.Table.length / 8 - 1 := by
    rw [UInt64.toNat_and, ← wf.blockMask]
    exact Nat.and_le_right
  have eighth : 8 * (s.Table.length / 8) ≤ s.Table.length := Nat.mul_div_le _ _
  have block : ((spread h &&& s.BlockMask) <<< (3 : UInt64)).toNat = (spread h &&& s.BlockMask).toNat * 8 := by
    rw [UInt64.toNat_shiftLeft, show (3 : UInt64).toNat % 64 = 3 from rfl, Nat.shiftLeft_eq,
      Nat.mod_eq_of_lt (by have := wf.fits; omega)]
  have blockFits : ((spread h &&& s.BlockMask) <<< (3 : UInt64)).toNat + 8 ≤ s.Table.length := by
    have := wf.room
    rw [block]
    omega
  have blockSmall : ((spread h &&& s.BlockMask) <<< (3 : UInt64)).toNat + 8 < 2 ^ 64 := by
    have := wf.fits
    omega
  intro slot member
  simp only [slots, List.mem_cons, List.mem_nil_iff, or_false] at member
  rcases member with rfl | rfl | rfl | rfl <;> exact slot_indexOf (by decide) blockFits blockSmall

/-! ### Growing the table -/

/-- One smearing step of `next2Power` keeps a number below `2 ^ 63` and lowers it not. -/
theorem smear_bounds {y : UInt64} (below : y.toNat < 2 ^ 63) (k : UInt64) :
    y.toNat ≤ (y ||| y >>> k).toNat ∧ (y ||| y >>> k).toNat < 2 ^ 63 := by
  have shifted : (y >>> k).toNat ≤ y.toNat := by
    rw [UInt64.toNat_shiftRight]
    exact Nat.shiftRight_le _ _
  rw [UInt64.toNat_or]
  exact ⟨Nat.left_le_or, Nat.or_lt_two_pow below (shifted.trans_lt below)⟩

/-- `next2Power` of a positive `x` up to `2 ^ 63` is at least `x` and at most `2 ^ 63`. -/
theorem next2Power_bounds {x : UInt64} (positive : 1 ≤ x.toNat) (small : x.toNat ≤ 2 ^ 63) :
    x.toNat ≤ (next2Power x).toNat ∧ (next2Power x).toNat ≤ 2 ^ 63 := by
  have start : (x - 1).toNat = x.toNat - 1 := by
    rw [UInt64.toNat_sub_of_le _ _ (UInt64.le_iff_toNat_le.mpr (show (1 : UInt64).toNat ≤ x.toNat from positive))]
    rfl
  obtain ⟨l1, b1⟩ := smear_bounds (show (x - 1).toNat < 2 ^ 63 by omega) 1
  obtain ⟨l2, b2⟩ := smear_bounds b1 2
  obtain ⟨l3, b3⟩ := smear_bounds b2 4
  obtain ⟨l4, b4⟩ := smear_bounds b3 8
  obtain ⟨l5, b5⟩ := smear_bounds b4 16
  obtain ⟨l6, b6⟩ := smear_bounds b5 32
  simp only [next2Power]
  rw [UInt64.toNat_add, show (1 : UInt64).toNat = 1 from rfl, Nat.mod_eq_of_lt (by omega)]
  omega

/-- `10 * size` wraps to zero only for multiples of `2 ^ 63`, so never for a size from
sixteen to below `2 ^ 63`. -/
theorem ten_mul_mod_ne_zero {size : ℕ} (atLeast : 16 ≤ size) (below : size < 2 ^ 63) :
    10 * size % 2 ^ 64 ≠ 0 := by
  have power : (2 : ℕ) ^ 64 = 2 * 2 ^ 63 := by norm_num
  have coprime : Nat.Coprime (2 ^ 63) 5 := Nat.Coprime.pow_left 63 (by decide)
  intro zero
  have whole : 2 * 2 ^ 63 ∣ 2 * (5 * size) := by
    rw [← power, ← Nat.mul_assoc]
    exact Nat.dvd_of_mod_eq_zero zero
  have divides : 2 ^ 63 ∣ size :=
    coprime.dvd_of_dvd_mul_left (Nat.dvd_of_mul_dvd_mul_left (by decide) whole)
  exact absurd (Nat.le_of_dvd (lt_of_lt_of_le (by decide) atLeast) divides) (not_le.mpr below)

/-- The table `EnsureCapacity` builds for a size from sixteen to below `2 ^ 63` is
well formed. -/
theorem wellFormed_fresh {size : UInt64} (atLeast : 16 ≤ size.toNat) (below : size.toNat < 2 ^ 63) :
    ({ Table := List.replicate (next2Power size).toNat 0, Additions := 0, SampleSize := 10 * size,
       BlockMask := UInt64.ofInt ((((List.replicate (next2Power size).toNat (0 : UInt64)).length >>> 3 : ℕ) : ℤ) - 1) } :
      CountMinSketch).WellFormed := by
  obtain ⟨grown, capped⟩ := next2Power_bounds (x := size) (by omega) (by omega)
  have cast := Go.toNat_ofInt64 (((((next2Power size).toNat >>> 3 : ℕ) : ℤ)) - 1)
  rw [Nat.shiftRight_eq_div_pow] at cast
  refine ⟨?room, ?fits, ?blockMask, ?pending⟩
  case room => simp only [List.length_replicate]; omega
  case fits => simp only [List.length_replicate]; omega
  case blockMask =>
    simp only [List.length_replicate, Nat.shiftRight_eq_div_pow]
    omega
  case pending =>
    rw [UInt64.lt_iff_toNat_lt, UInt64.toNat_mul, show (0 : UInt64).toNat = 0 from rfl,
      show (10 : UInt64).toNat = 10 from rfl]
    exact Nat.pos_of_ne_zero (ten_mul_mod_ne_zero atLeast below)

/-- A table that `EnsureCapacity` builds is well formed: the test `len >= int(size)`
lets only sizes below `2 ^ 63` through. -/
theorem wellFormed_ensureCapacity {s : CountMinSketch} (wf : s.WellFormed) (size : UInt64) :
    (s.ensureCapacity size).WellFormed := by
  by_cases enough : (s.Table.length : ℤ) ≥ Go.toInt64 size.toNat
  · rw [ensureCapacity, if_pos enough]
    exact wf
  have sizeSmall : size.toNat < 2 ^ 63 := by
    have := size.toNat_lt
    simp only [Go.toInt64, Go.wrapInt64] at enough
    omega
  -- the size after raising it to sixteen
  have clamped : 16 ≤ (if size < 16 then 16 else size).toNat ∧
      (if size < 16 then 16 else size).toNat < 2 ^ 63 := by
    by_cases below : size < 16
    · rw [if_pos below]
      exact ⟨le_refl _, by decide⟩
    · rw [if_neg below]
      exact ⟨by simpa [UInt64.lt_iff_toNat_lt] using below, sizeSmall⟩
  rw [ensureCapacity, if_neg enough]
  exact wellFormed_fresh clamped.1 clamped.2

/-- `NewCountMinSketch` builds a well-formed sketch. -/
theorem wellFormed_newCountMinSketch : newCountMinSketch.WellFormed := by
  have empty : ¬ (([] : List UInt64).length : ℤ) ≥ Go.toInt64 (16 : UInt64).toNat := by
    rw [show (16 : UInt64).toNat = 16 from rfl]
    norm_num [Go.toInt64, Go.wrapInt64]
  rw [newCountMinSketch, ensureCapacity, if_neg empty,
    if_neg (by decide : ¬ (16 : UInt64) < 16)]
  exact wellFormed_fresh (by decide) (by rw [show (16 : UInt64).toNat = 16 from rfl]; norm_num)

/-! ### One `Add` -/

/-- The sketch after `inc` on each slot in turn, as `Add` raises the counters of a hash. -/
def incEach (s : CountMinSketch) (slots : List (UInt64 × UInt64)) : CountMinSketch :=
  slots.foldl (fun s slot => (s.inc slot.1 slot.2).1) s

section IncEach

theorem incEach_cons (s : CountMinSketch) (slot : UInt64 × UInt64) (rest : List (UInt64 × UInt64)) :
    s.incEach (slot :: rest) = (s.inc slot.1 slot.2).1.incEach rest := rfl

theorem incEach_fields (s : CountMinSketch) (slots : List (UInt64 × UInt64)) :
    (s.incEach slots).Additions = s.Additions ∧ (s.incEach slots).SampleSize = s.SampleSize ∧
      (s.incEach slots).BlockMask = s.BlockMask ∧
      (s.incEach slots).Table.length = s.Table.length := by
  induction slots generalizing s with
  | nil => exact ⟨rfl, rfl, rfl, rfl⟩
  | cons slot rest ih =>
    obtain ⟨additions, sampleSize, blockMask, length⟩ := ih (s.inc slot.1 slot.2).1
    simp only [incEach, List.foldl_cons] at additions sampleSize blockMask length ⊢
    simp [additions, sampleSize, blockMask, length]

/-- Raising counters lowers none. -/
theorem counterAt_le_incEach {s : CountMinSketch} {slots : List (UInt64 × UInt64)}
    (inTable : ∀ slot ∈ slots, Slot s.Table slot) {other : UInt64 × UInt64} (aligned : Aligned other.2) :
    counterAt s.Table other ≤ counterAt (s.incEach slots).Table other := by
  induction slots generalizing s with
  | nil => exact le_refl _
  | cons slot rest ih =>
    have first := counterAt_le_inc (inTable slot (List.mem_cons_self ..)) aligned
    have still : ∀ later ∈ rest, Slot (s.inc slot.1 slot.2).1.Table later := fun later member =>
      by simpa [Slot] using inTable later (List.mem_cons_of_mem _ member)
    exact first.trans (ih still)

/-- Each raised counter goes up by one, up to fifteen. -/
theorem counterAt_incEach_of_mem {s : CountMinSketch} {slots : List (UInt64 × UInt64)}
    (inTable : ∀ slot ∈ slots, Slot s.Table slot) {raised : UInt64 × UInt64} (member : raised ∈ slots) :
    min 15 (counterAt s.Table raised + 1) ≤ counterAt (s.incEach slots).Table raised := by
  induction slots generalizing s with
  | nil => exact absurd member List.not_mem_nil
  | cons slot rest ih =>
    have still : ∀ later ∈ rest, Slot (s.inc slot.1 slot.2).1.Table later := fun later member =>
      by simpa [Slot] using inTable later (List.mem_cons_of_mem _ member)
    have raisedAligned : Aligned raised.2 := (inTable raised member).2
    by_cases first : raised = slot
    · -- raised now, and the later raises lower nothing
      subst first
      have now := counterAt_inc_self (inTable raised (List.mem_cons_self ..))
      exact now.symm.le.trans (counterAt_le_incEach still raisedAligned)
    · have later : raised ∈ rest := (List.mem_cons.mp member).resolve_left first
      have before := counterAt_le_inc (inTable slot (List.mem_cons_self ..)) raisedAligned
      rw [incEach_cons]
      exact le_trans (by omega) (ih still later)

end IncEach

@[simp] theorem countAddition_Table (s : CountMinSketch) : s.countAddition.Table = s.Table := rfl
@[simp] theorem countAddition_SampleSize (s : CountMinSketch) :
    s.countAddition.SampleSize = s.SampleSize := rfl
@[simp] theorem countAddition_BlockMask (s : CountMinSketch) :
    s.countAddition.BlockMask = s.BlockMask := rfl
@[simp] theorem reset_SampleSize (s : CountMinSketch) : s.reset.SampleSize = s.SampleSize := rfl
@[simp] theorem reset_BlockMask (s : CountMinSketch) : s.reset.BlockMask = s.BlockMask := rfl

/-- What one `Add` can do: raise the counters of the hash and leave the count of
additions, count one more addition, or count the addition that reaches `SampleSize`
and age the table. -/
theorem add_cases (s : CountMinSketch) (h : UInt64) :
    s.add h = (s.incEach (s.slots h), false) ∨
    (s.add h = ((s.incEach (s.slots h)).countAddition, false) ∧
      s.Additions + 1 ≠ s.SampleSize) ∨
    (s.add h = ((s.incEach (s.slots h)).countAddition.reset, true) ∧
      s.Additions + 1 = s.SampleSize) := by
  obtain ⟨additions, sampleSize, -, -⟩ := s.incEach_fields (s.slots h)
  simp only [add]
  split_ifs with added reached
  · right; right
    refine ⟨rfl, ?_⟩
    simpa [countAddition, additions, sampleSize] using reached
  · right; left
    refine ⟨rfl, ?_⟩
    simpa [countAddition, additions, sampleSize] using reached
  · left; rfl

theorem add_fields (s : CountMinSketch) (h : UInt64) :
    (s.add h).1.SampleSize = s.SampleSize ∧ (s.add h).1.BlockMask = s.BlockMask ∧
      (s.add h).1.Table.length = s.Table.length := by
  obtain ⟨-, sampleSize, blockMask, length⟩ := s.incEach_fields (s.slots h)
  rcases s.add_cases h with same | ⟨counted, -⟩ | ⟨aged, -⟩
  · simp [same, sampleSize, blockMask, length]
  · simp [counted, sampleSize, blockMask, length]
  · simp [aged, sampleSize, blockMask, length]

/-- Fewer than `SampleSize` additions stay pending: the one that reaches it ages the table. -/
theorem pending_add {s : CountMinSketch} (below : s.Additions < s.SampleSize) (h : UInt64) :
    (s.add h).1.Additions < (s.add h).1.SampleSize := by
  obtain ⟨additions, sampleSize, -, -⟩ := s.incEach_fields (s.slots h)
  rw [UInt64.lt_iff_toNat_lt] at below ⊢
  have room : s.Additions.toNat + 1 < 2 ^ 64 := by
    have := s.SampleSize.toNat_lt
    omega
  have plusOne : (s.Additions + 1).toNat = s.Additions.toNat + 1 := by
    rw [UInt64.toNat_add, show (1 : UInt64).toNat = 1 from rfl, Nat.mod_eq_of_lt room]
  rcases s.add_cases h with same | ⟨counted, notReached⟩ | ⟨aged, reached⟩
  · simpa [same, additions, sampleSize] using below
  · have differ : s.Additions.toNat + 1 ≠ s.SampleSize.toNat := by
      rw [← plusOne]
      exact fun same => notReached (UInt64.toNat_inj.mp same)
    simp only [counted, countAddition, additions, sampleSize]
    rw [plusOne]
    omega
  · have same : s.Additions.toNat + 1 = s.SampleSize.toNat := by
      rw [← plusOne, reached]
    simp only [aged, reset, countAddition, additions, sampleSize]
    rw [UInt64.toNat_shiftRight, show (1 : UInt64).toNat % 64 = 1 from rfl, Nat.shiftRight_eq_div_pow,
      plusOne]
    omega

theorem wellFormed_add {s : CountMinSketch} (wf : s.WellFormed) (h : UInt64) : (s.add h).1.WellFormed := by
  obtain ⟨sampleSize, blockMask, length⟩ := s.add_fields h
  exact ⟨length ▸ wf.room, length ▸ wf.fits, by rw [blockMask, length]; exact wf.blockMask,
    pending_add wf.pending h⟩

@[simp] theorem slots_add (s : CountMinSketch) (h added : UInt64) :
    (s.add added).1.slots h = s.slots h := by
  simp [slots, (s.add_fields added).2.1]

/-! ### The estimate never falls below the aged count -/

/-- `Estimate` reaches any bound up to fifteen that all four counters reach. -/
theorem le_estimate {s : CountMinSketch} {h : UInt64} {d : ℕ} (small : d ≤ 15)
    (counters : ∀ slot ∈ s.slots h, d ≤ counterAt s.Table slot) : d ≤ (s.estimate h).toNat := by
  simp only [slots, List.mem_cons, List.mem_nil_iff, or_false, forall_eq_or_imp, forall_eq] at counters
  obtain ⟨c0, c1, c2, c3⟩ := counters
  simp only [estimate, count, word, UInt64.toNat_min, show (100 : UInt64).toNat = 100 from rfl]
  simp only [counterAt] at c0 c1 c2 c3
  omega

theorem estimate_le_fifteen (s : CountMinSketch) (h : UInt64) : (s.estimate h).toNat ≤ 15 := by
  have c3 := counterAt_le s.Table ((s.slots h).getD 3 (0, 0))
  simp only [slots, List.getD_cons_succ, List.getD_cons_zero, counterAt] at c3
  simp only [estimate, count, UInt64.toNat_min, word]
  omega

/-- Every counter of `h` is at least `d`. -/
def Dominates (s : CountMinSketch) (h : UInt64) (d : ℕ) : Prop :=
  ∀ slot ∈ s.slots h, d ≤ counterAt s.Table slot

/-- The count of `h` that one `Add` of `added` should leave: one more for an add of `h`,
up to fifteen, and halved when the add ages the table. -/
def agedStep (h : UInt64) (d : ℕ) (added : UInt64) (aged : Bool) : ℕ :=
  let raised := if added = h then min 15 (d + 1) else d
  if aged then raised / 2 else raised

/-- The count of `h` along a run of adds, each with what it returned. -/
def agedCount (h : UInt64) : ℕ → List (UInt64 × Bool) → ℕ
  | d, [] => d
  | d, (added, aged) :: rest => agedCount h (agedStep h d added aged) rest

/-- `Add` the hashes in turn, recording what each call returned. -/
def addAll (s : CountMinSketch) : List UInt64 → CountMinSketch × List (UInt64 × Bool)
  | [] => (s, [])
  | h :: hs =>
    let (final, trace) := (s.add h).1.addAll hs
    (final, (h, (s.add h).2) :: trace)

theorem agedStep_le_fifteen {h : UInt64} {d : ℕ} (small : d ≤ 15) (added : UInt64) (aged : Bool) :
    agedStep h d added aged ≤ 15 := by
  simp only [agedStep]
  split_ifs <;> omega

/-- One `Add` keeps the counters of `h` above its aged count. -/
theorem dominates_add {s : CountMinSketch} (wf : s.WellFormed) {h : UInt64} {d : ℕ}
    (dominated : s.Dominates h d) (added : UInt64) :
    (s.add added).1.Dominates h (agedStep h d added (s.add added).2) := by
  intro slot member
  rw [slots_add] at member
  have aligned : Aligned slot.2 := (slot_of_wellFormed wf h slot member).2
  have inTable := slot_of_wellFormed wf added
  -- the counter after the four raises, before any aging
  have raised : (if added = h then min 15 (d + 1) else d) ≤ counterAt (s.incEach (s.slots added)).Table slot := by
    have before := dominated slot member
    split_ifs with same
    · subst same
      have up := counterAt_incEach_of_mem inTable member
      omega
    · exact before.trans (counterAt_le_incEach inTable aligned)
  rcases s.add_cases added with same | ⟨counted, -⟩ | ⟨aged, -⟩
  · simpa [same, agedStep] using raised
  · simpa [counted, agedStep] using raised
  · rw [aged]
    have halved := half_le_counterAt_reset (s.incEach (s.slots added)).countAddition aligned
    simp only [countAddition_Table] at halved
    simp only [agedStep, if_true]
    omega

/-- Along any run of adds from a well-formed sketch, the counters of `h` stay above its
aged count. -/
theorem dominates_addAll {s : CountMinSketch} (wf : s.WellFormed) {h : UInt64} {d : ℕ}
    (small : d ≤ 15) (dominated : s.Dominates h d) (hs : List UInt64) :
    (s.addAll hs).1.Dominates h (agedCount h d (s.addAll hs).2) ∧ agedCount h d (s.addAll hs).2 ≤ 15 := by
  induction hs generalizing s d with
  | nil => exact ⟨dominated, small⟩
  | cons added rest ih =>
    exact ih (wellFormed_add wf added) (agedStep_le_fifteen small added _) (dominates_add wf dominated added)

theorem map_fst_addAll (s : CountMinSketch) (hs : List UInt64) : (s.addAll hs).2.map Prod.fst = hs := by
  induction hs generalizing s with
  | nil => rfl
  | cons h rest ih => simp [addAll, ih]

/-- Without aging the aged count is the number of adds, up to fifteen. -/
theorem agedCount_of_not_aged {h : UInt64} {d : ℕ} {trace : List (UInt64 × Bool)}
    (small : d ≤ 15) (fresh : ∀ step ∈ trace, step.2 = false) :
    agedCount h d trace = min 15 (d + (trace.map Prod.fst).count h) := by
  induction trace generalizing d with
  | nil => simp [agedCount]; omega
  | cons step rest ih =>
    obtain ⟨added, aged⟩ := step
    have notAged : aged = false := fresh (added, aged) (List.mem_cons_self ..)
    subst notAged
    have restFresh : ∀ step ∈ rest, step.2 = false := fun step member => fresh step (List.mem_cons_of_mem _ member)
    rw [agedCount, ih (agedStep_le_fifteen small added false) restFresh, List.map_cons, List.count_cons]
    simp only [agedStep, Bool.false_eq_true, if_false]
    by_cases same : added = h
    · subst same
      simp only [if_true, beq_self_eq_true]
      omega
    · simp only [same, if_false, beq_iff_eq]
      omega

/-- The sketch never underestimates, up to its aging: after any run of adds from a
well-formed sketch, the estimate of every hash is at least its aged count, and without
a reset it is at least the number of times the hash was added, up to fifteen. -/
theorem estimate_never_underestimates {s : CountMinSketch} (wf : s.WellFormed) (h : UInt64)
    (hs : List UInt64) :
    agedCount h 0 (s.addAll hs).2 ≤ ((s.addAll hs).1.estimate h).toNat ∧
      ((∀ step ∈ (s.addAll hs).2, step.2 = false) →
        min 15 (hs.count h) ≤ ((s.addAll hs).1.estimate h).toNat) := by
  have start : s.Dominates h 0 := fun slot _ => Nat.zero_le _
  obtain ⟨dominated, small⟩ := dominates_addAll wf (Nat.zero_le 15) start hs
  have bound := le_estimate small dominated
  refine ⟨bound, fun fresh => ?_⟩
  rw [agedCount_of_not_aged (Nat.zero_le 15) fresh, map_fst_addAll, Nat.zero_add] at bound
  exact bound

/-- Three adds to a new sketch, two of them of the same hash. -/
theorem estimate_never_underestimates_twice :
    newCountMinSketch.WellFormed ∧
      (agedCount 7 0 (newCountMinSketch.addAll [7, 3, 7]).2 ≤
          ((newCountMinSketch.addAll [7, 3, 7]).1.estimate 7).toNat ∧
        ((∀ step ∈ (newCountMinSketch.addAll [7, 3, 7]).2, step.2 = false) →
          min 15 ([7, 3, 7].count 7) ≤ ((newCountMinSketch.addAll [7, 3, 7]).1.estimate 7).toNat)) :=
  ⟨wellFormed_newCountMinSketch,
    estimate_never_underestimates wellFormed_newCountMinSketch 7 [7, 3, 7]⟩

example : ((newCountMinSketch.addAll [7, 3, 7]).1.estimate 7).toNat = 2 := by decide +kernel

/-! ### Aging seen through `Estimate` -/

/-- `Estimate` is at most each of the four counters. -/
theorem estimate_le_counterAt (s : CountMinSketch) (h : UInt64) :
    ∀ slot ∈ s.slots h, (s.estimate h).toNat ≤ counterAt s.Table slot := by
  intro slot member
  simp only [slots, List.mem_cons, List.mem_nil_iff, or_false] at member
  simp only [estimate, count, word, UInt64.toNat_min]
  rcases member with rfl | rfl | rfl | rfl <;> simp only [counterAt] <;> omega

/-- `reset` is not a halving of the counters: each counter is halved and takes the low
bit of the counter above it as its top bit, so a counter can grow across a reset;
estimates still keep at least half their value. -/
theorem reset_shifts_counters (s : CountMinSketch) :
    (∀ (index offset : UInt64) (j : ℕ), j < 16 → offset.toNat = 4 * j →
      counterAt s.reset.Table (index, offset) =
        counterAt s.Table (index, offset) / 2 + 8 * (digit 16 (s.word index).toNat (j + 1) % 2)) ∧
    ∀ h, (s.estimate h).toNat / 2 ≤ (s.reset.estimate h).toNat := by
  refine ⟨fun index offset j inWord aligned => counterAt_reset s inWord aligned, fun h => ?_⟩
  have sameSlots : s.reset.slots h = s.slots h := by simp [slots]
  have small : (s.estimate h).toNat / 2 ≤ 15 := by
    have := estimate_le_fifteen s h
    omega
  apply le_estimate small
  intro slot member
  rw [sameSlots] at member
  have least := estimate_le_counterAt s h slot member
  have halved := half_le_counterAt_reset s (aligned_of_mem_slots member)
  omega

end CountMinSketch

/-- The calls through which the cache drives its sketch. -/
inductive Op
  | add (h : UInt64)
  | ensureCapacity (size : UInt64)
  deriving DecidableEq, Repr

/-- One call on the sketch. -/
def Op.apply (s : CountMinSketch) : Op → CountMinSketch
  | .add h => (s.add h).1
  | .ensureCapacity size => s.ensureCapacity size

/-- Every run of calls keeps a well-formed sketch well formed. -/
theorem wellFormed_run {s : CountMinSketch} (wf : s.WellFormed) (ops : List Op) :
    (ops.foldl Op.apply s).WellFormed := by
  induction ops generalizing s with
  | nil => exact wf
  | cons op rest ih =>
    rw [List.foldl_cons]
    apply ih
    cases op with
    | add h => exact CountMinSketch.wellFormed_add wf h
    | ensureCapacity size => exact CountMinSketch.wellFormed_ensureCapacity wf size

/-- Whatever `Add` and `EnsureCapacity` calls a sketch from `NewCountMinSketch` goes
through, the four counters of every hash lie inside its table on counter boundaries,
so `Add` and `Estimate` never index past the table, and fewer than `SampleSize`
additions are pending. -/
theorem sketch_stays_in_bounds (ops : List Op) :
    (∀ h, ∀ slot ∈ (ops.foldl Op.apply newCountMinSketch).slots h,
      slot.1.toNat < (ops.foldl Op.apply newCountMinSketch).Table.length ∧ Aligned slot.2) ∧
    (ops.foldl Op.apply newCountMinSketch).Additions < (ops.foldl Op.apply newCountMinSketch).SampleSize := by
  have wf := wellFormed_run CountMinSketch.wellFormed_newCountMinSketch ops
  exact ⟨CountMinSketch.slot_of_wellFormed wf, wf.pending⟩

end Vitess.Theine
