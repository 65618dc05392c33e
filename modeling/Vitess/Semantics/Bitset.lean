import Vitess.Data.ByteSet
import Vitess.Go.Slice

/-!
# `vtgate/semantics/bitset`

A `Bitset` is a Go string of bytes. It stands for the set `den` of the numbers
`8 * i + k` whose bit `k` of byte `i` is one (`Vitess.ByteSet.Mem`). `toBitset`
panics on a slice that ends in a zero byte, so every operation must return a
canonical string, one without a trailing zero byte; that is also what lets
`semantics.TableSet` compare Bitsets with `==` and use them as map keys, since
canonical strings are equal exactly when their sets are.

A panic is `none` here. Each operation's spec lemma says that on canonical
inputs it returns `some` canonical Bitset holding the expected set, and the
queries (`Overlaps`, `IsContainedBy`, `Popcount`, `SingleBit`, `ForEach`) are
read off `ByteSet.elements`, the increasing list of the set.
-/

namespace Vitess.Semantics

open Vitess.ByteSet

/-- Go's `type Bitset string`, as its bytes. -/
abbrev Bitset := List UInt8

namespace Bitset

def bitsetWidth : ℕ := 8

@[simp] theorem bitsetWidth_eq : bitsetWidth = 8 := rfl

def bitsetWordSize (max : ℕ) : ℕ := max / bitsetWidth + 1

/-- The set a Bitset stands for. -/
def den (bs : Bitset) : Set ℕ := {n | Mem bs n}

/-- `toBitset`, with `none` for its panic on a slice that ends in a zero byte. -/
def toBitset (words : List UInt8) : Option Bitset :=
  match words.getLast? with
  | none => some []
  | some last => if last = 0 then none else some words

def overlaps (bs b2 : Bitset) : Bool :=
  (List.zipWith (· &&& ·) bs b2).any (· != 0)

def or (bs b2 : Bitset) : Option Bitset :=
  if bs.length = 0 then some b2
  else if b2.length = 0 then some bs
  else
    let (small, large) := if bs.length > b2.length then (b2, bs) else (bs, b2)
    -- `merged[m] = small[m] | large[m]` below `len(small)`, then `large[m]`
    toBitset (List.zipWith (· ||| ·) small large ++ large.drop small.length)

/-- The length the trim loop `for ; m > 0; m-- { if merged[m-1] != 0 { break } }`
stops at. -/
def trimLength (merged : List UInt8) : ℕ → ℕ
  | 0 => 0
  | m + 1 => if byteAt merged m ≠ 0 then m + 1 else trimLength merged m

/-- `merged[:m]` after the trim loop. -/
def trim (merged : List UInt8) : List UInt8 :=
  merged.take (trimLength merged merged.length)

def andNot (bs b2 : Bitset) : Option Bitset :=
  if b2.length = 0 then some bs
  else
    let merged := bs.mapIdx fun m byte => if h : m < b2.length then byte &&& ~~~b2[m] else byte
    toBitset (trim merged)

def and (bs b2 : Bitset) : Option Bitset :=
  if bs.length = 0 ∨ b2.length = 0 then some []
  else toBitset (trim (List.zipWith (· &&& ·) bs b2))

/-- `words[offset/bitsetWidth] |= 1 << (offset % bitsetWidth)`. -/
def setBit (words : List UInt8) (offset : ℕ) : List UInt8 :=
  words.modify (offset / bitsetWidth) (· ||| (1 : UInt8) <<< UInt8.ofNat (offset % bitsetWidth))

def set (bs : Bitset) (offset : ℕ) : Option Bitset :=
  let alloc := max bs.length (bitsetWordSize offset)
  -- `make([]byte, alloc)` and `copy(words, bs)`
  toBitset (setBit (bs ++ List.replicate (alloc - bs.length) 0) offset)

/-- The loop of `SingleBit` from byte `i`, with the offset found so far. -/
def singleBitFrom : List UInt8 → ℕ → ℤ → ℤ
  | [], _, offset => offset
  | t :: rest, i, offset =>
    if t = 0 then singleBitFrom rest (i + 1) offset
    else if offset ≥ 0 ∨ onesCount8 t ≠ 1 then -1
    else singleBitFrom rest (i + 1) (i * bitsetWidth + trailingZeros8 t)

def singleBit (bs : Bitset) : ℤ := singleBitFrom bs 0 (-1)

def isContainedBy (bs b2 : Bitset) : Bool :=
  if bs.length > b2.length then false
  else (List.zipWith (fun left rigt => left &&& rigt == left) bs b2).all id

def popcount (bs : Bitset) : ℕ := (bs.map onesCount8).sum

/-- The inner loop of `ForEach` on byte `i`: yield the lowest set bit and clear it. -/
def forEachBit (i : ℕ) (bitset : UInt8) : List ℕ :=
  if _ : bitset = 0 then []
  else
    let t := bitset &&& -bitset
    (i * bitsetWidth + trailingZeros8 bitset) :: forEachBit i (bitset ^^^ t)
termination_by bitset.toNat
decreasing_by exact clearLowest_lt bitset ‹_›

/-- `ForEach` from byte `i` on, as the values it yields in order. -/
def forEachFrom : List UInt8 → ℕ → List ℕ
  | [], _ => []
  | bitset :: rest, i => forEachBit i bitset ++ forEachFrom rest (i + 1)

def forEach (bs : Bitset) : List ℕ := forEachFrom bs 0

def build (bits : List ℕ) : Option Bitset :=
  match bits with
  | [] => some []
  | first :: rest =>
    let max := rest.foldl (fun max b => if b > max then b else max) first
    toBitset (bits.foldl setBit (List.replicate (bitsetWordSize max) 0))

def singleton : List UInt8 :=
  [0, 0, 0, 0x01, 0, 0, 0, 0x02, 0, 0, 0, 0x04, 0, 0, 0, 0x08,
    0, 0, 0, 0x10, 0, 0, 0, 0x20, 0, 0, 0, 0x40, 0, 0, 0, 0x80]

/-- `Single`, for a bit that is not negative. -/
def single (bit : ℕ) : Option Bitset :=
  if bit < 8 then
    let bit := (bit + 1) <<< 2
    (Go.sliceExpr singleton (bit - 1 : ℤ) bit).toOption
  else if bit < 16 then
    let bit := (bit + 1 - 8) <<< 2
    (Go.sliceExpr singleton (bit - 2 : ℤ) bit).toOption
  else if bit < 24 then
    let bit := (bit + 1 - 16) <<< 2
    (Go.sliceExpr singleton (bit - 3 : ℤ) bit).toOption
  else if bit < 32 then
    let bit := (bit + 1 - 24) <<< 2
    (Go.sliceExpr singleton (bit - 4 : ℤ) bit).toOption
  else
    toBitset (setBit (List.replicate (bitsetWordSize bit) 0) bit)

/-! ## Building blocks -/

variable {a b : Bitset} {words merged : List UInt8}

theorem toBitset_of_canonical (canonical : Canonical words) : toBitset words = some words := by
  unfold toBitset
  cases last : words.getLast? with
  | none => rw [List.getLast?_eq_none_iff.mp last]
  | some byte =>
    have nonzero : byte ≠ 0 := fun zero => canonical (zero ▸ last)
    simp [nonzero]

theorem mem_den {bs : Bitset} {n : ℕ} : n ∈ den bs ↔ Mem bs n := Iff.rfl

/-- Two canonical Bitsets are equal exactly when their sets are. -/
theorem eq_iff_den_eq (canonicalA : Canonical a) (canonicalB : Canonical b) :
    a = b ↔ den a = den b := by
  rw [eq_iff_mem_iff canonicalA canonicalB, Set.ext_iff]
  rfl

/-- A spec that an operation returns a canonical Bitset whose members are those
of `members`. -/
def Returns (result : Option Bitset) (members : ℕ → Prop) : Prop :=
  ∃ c, result = some c ∧ Canonical c ∧ ∀ n, Mem c n ↔ members n

theorem returns_of_canonical (canonical : Canonical words) {members : ℕ → Prop}
    (same : ∀ n, Mem words n ↔ members n) : Returns (toBitset words) members :=
  ⟨words, toBitset_of_canonical canonical, canonical, same⟩

theorem Returns.den_eq {result : Option Bitset} {members : ℕ → Prop}
    (returns : Returns result members) :
    ∃ c, result = some c ∧ Canonical c ∧ den c = {n | members n} := by
  obtain ⟨c, rfl, canonical, same⟩ := returns
  exact ⟨c, rfl, canonical, Set.ext same⟩

theorem trimLength_le : ∀ m, trimLength merged m ≤ m
  | 0 => le_rfl
  | m + 1 => by
    unfold trimLength
    split_ifs
    · exact le_rfl
    · exact Nat.le_succ_of_le (trimLength_le m)

/-- The trim loop stops past the last nonzero byte below `m`. -/
theorem byteAt_of_trimLength_le : ∀ m j, trimLength merged m ≤ j → j < m → byteAt merged j = 0
  | 0, _, _, below => absurd below (Nat.not_lt_zero _)
  | m + 1, j, above, below => by
    unfold trimLength at above
    split_ifs at above with nonzero
    · omega
    · rcases Nat.lt_succ_iff_lt_or_eq.mp below with earlier | rfl
      · exact byteAt_of_trimLength_le m j above earlier
      · simpa using nonzero

theorem byteAt_trimLength_ne_zero : ∀ m, trimLength merged m ≠ 0 →
    byteAt merged (trimLength merged m - 1) ≠ 0
  | 0, stopped => absurd rfl stopped
  | m + 1, stopped => by
    unfold trimLength at stopped ⊢
    split_ifs with nonzero
    · exact nonzero
    · rw [if_neg nonzero] at stopped
      exact byteAt_trimLength_ne_zero m stopped

@[simp] theorem byteAt_trim (i : ℕ) : byteAt (trim merged) i = byteAt merged i := by
  refine byteAt_take (fun j above => ?_) i
  by_cases inside : j < merged.length
  · exact byteAt_of_trimLength_le _ j above inside
  · exact byteAt_of_length_le (Nat.le_of_not_lt inside)

theorem canonical_trim (merged : List UInt8) : Canonical (trim merged) := by
  by_cases empty : trimLength merged merged.length = 0
  · rw [trim, empty, List.take_zero]
    exact canonical_nil
  · have length : (trim merged).length = trimLength merged merged.length - 1 + 1 := by
      rw [trim, List.length_take, min_eq_left (trimLength_le _)]
      omega
    refine canonical_of_byteAt length ?_
    rw [byteAt_trim]
    exact byteAt_trimLength_ne_zero _ empty

theorem mem_trim {n : ℕ} : Mem (trim merged) n ↔ Mem merged n := by
  rw [Mem, Mem, byteAt_trim]

theorem returns_trim {members : ℕ → Prop} (same : ∀ n, Mem merged n ↔ members n) :
    Returns (toBitset (trim merged)) members :=
  returns_of_canonical (canonical_trim merged) fun n => mem_trim.trans (same n)

@[simp] theorem length_setBit (offset : ℕ) : (setBit words offset).length = words.length :=
  List.length_modify _ _ _

@[simp] theorem length_foldl_setBit :
    ∀ (bits : List ℕ) (words : List UInt8), (bits.foldl setBit words).length = words.length
  | [], _ => rfl
  | b :: rest, words => by
    rw [List.foldl_cons, length_foldl_setBit rest, length_setBit]

/-- Setting a bit adds its offset, when its byte is inside the slice. -/
theorem mem_setBit {offset n : ℕ} :
    Mem (setBit words offset) n ↔ Mem words n ∨ n = offset ∧ offset / 8 < words.length := by
  have low : offset % 8 < 8 := Nat.mod_lt _ (by decide)
  rw [Mem, Mem, setBit, byteAt_modify, bitsetWidth_eq]
  by_cases target : offset / 8 = n / 8 ∧ n / 8 < words.length
  · rw [if_pos target, testBit_or, toNat_one_shiftLeft low, Nat.testBit_two_pow, Bool.or_eq_true,
      decide_eq_true_eq]
    have sameBit : offset % 8 = n % 8 ↔ n = offset ∧ offset / 8 < words.length := by
      constructor
      · intro sameBit
        exact ⟨by omega, target.1 ▸ target.2⟩
      · rintro ⟨rfl, _⟩
        rfl
    rw [sameBit]
  · rw [if_neg target]
    have other : ¬ (n = offset ∧ offset / 8 < words.length) := by
      rintro ⟨rfl, inside⟩
      exact target ⟨rfl, inside⟩
    simp [other]

/-! ## The operations that build Bitsets -/

theorem byteAt_orMerged {small large : List UInt8} (shorter : small.length ≤ large.length) (i : ℕ) :
    byteAt (List.zipWith (· ||| ·) small large ++ large.drop small.length) i =
      byteAt small i ||| byteAt large i := by
  have length : (List.zipWith (· ||| ·) small large).length = small.length := by
    simp [List.length_zipWith, shorter]
  by_cases inside : i < small.length
  · rw [byteAt, List.getElem?_append_left (length ▸ inside), List.getElem?_zipWith,
      List.getElem?_eq_getElem inside, List.getElem?_eq_getElem (by omega),
      byteAt_of_lt inside, byteAt_of_lt (by omega)]
    rfl
  · rw [byteAt, List.getElem?_append_right (by omega), length, List.getElem?_drop,
      Nat.add_sub_cancel' (by omega), byteAt_of_length_le (by omega)]
    simp [byteAt]

theorem or_merged_returns {small large : List UInt8} (shorter : small.length ≤ large.length)
    (canonical : Canonical large) (nonempty : large ≠ []) :
    Returns (toBitset (List.zipWith (· ||| ·) small large ++ large.drop small.length))
      fun n => Mem small n ∨ Mem large n := by
  have same : ∀ n, Mem (List.zipWith (· ||| ·) small large ++ large.drop small.length) n ↔
      Mem small n ∨ Mem large n := by
    intro n
    rw [Mem, Mem, Mem, byteAt_orMerged shorter, testBit_or, Bool.or_eq_true]
  -- the merged slice is as long as `large`, and ends where `large` does
  obtain ⟨last, length, mem⟩ := exists_mem_last canonical nonempty
  have mergedLength : (List.zipWith (· ||| ·) small large ++ large.drop small.length).length =
      last / 8 + 1 := by
    simp only [List.length_append, List.length_zipWith, List.length_drop]
    omega
  exact returns_of_canonical (canonical_of_mem mergedLength ((same last).mpr (.inr mem))) same

theorem or_returns (canonicalA : Canonical a) (canonicalB : Canonical b) :
    Returns (a.or b) fun n => Mem a n ∨ Mem b n := by
  unfold or
  by_cases emptyA : a.length = 0
  · rw [if_pos emptyA, List.length_eq_zero_iff.mp emptyA]
    exact ⟨b, rfl, canonicalB, by simp⟩
  by_cases emptyB : b.length = 0
  · rw [if_neg emptyA, if_pos emptyB, List.length_eq_zero_iff.mp emptyB]
    exact ⟨a, rfl, canonicalA, by simp⟩
  rw [if_neg emptyA, if_neg emptyB]
  by_cases swap : a.length > b.length
  · simp only [swap, if_true]
    obtain ⟨c, result, canonical, same⟩ :=
      or_merged_returns (Nat.le_of_lt swap) canonicalA (List.ne_nil_of_length_pos (by omega))
    exact ⟨c, result, canonical, fun n => (same n).trans or_comm⟩
  · simp only [swap, if_false]
    exact or_merged_returns (Nat.le_of_not_lt swap) canonicalB
      (List.ne_nil_of_length_pos (by omega))

theorem byteAt_andNotMerged (i : ℕ) :
    byteAt (a.mapIdx fun m byte => if h : m < b.length then byte &&& ~~~b[m] else byte) i =
      byteAt a i &&& ~~~byteAt b i := by
  simp only [byteAt, List.getElem?_mapIdx]
  cases a[i]? with
  | none => simp
  | some byte =>
    by_cases inside : i < b.length
    · simp [inside]
    · -- past the end of `b` the byte is copied: `byte & ^0 = byte`
      simp only [Option.map_some, Option.getD_some, inside, dite_false,
        List.getElem?_eq_none (Nat.le_of_not_lt inside), Option.getD_none]
      exact (byte_ext fun k _ => by simp).symm

theorem andNot_returns (canonicalA : Canonical a) :
    Returns (a.andNot b) fun n => Mem a n ∧ ¬ Mem b n := by
  unfold andNot
  by_cases emptyB : b.length = 0
  · rw [if_pos emptyB, List.length_eq_zero_iff.mp emptyB]
    exact ⟨a, rfl, canonicalA, by simp⟩
  rw [if_neg emptyB]
  refine returns_trim fun n => ?_
  have low : n % 8 < 8 := Nat.mod_lt _ (by decide)
  rw [Mem, byteAt_andNotMerged, testBit_and, testBit_not, Mem, Mem]
  simp [low]

theorem and_returns : Returns (a.and b) fun n => Mem a n ∧ Mem b n := by
  unfold and
  by_cases empty : a.length = 0 ∨ b.length = 0
  · rw [if_pos empty]
    rcases empty with empty | empty <;>
      · rw [List.length_eq_zero_iff] at empty
        exact ⟨[], rfl, canonical_nil, by simp [empty]⟩
  rw [if_neg empty]
  refine returns_trim fun n => ?_
  rw [Mem, byteAt_zipWith (fun _ => UInt8.zero_and) (fun _ => UInt8.and_zero), testBit_and,
    Bool.and_eq_true]
  rfl

theorem set_returns (canonicalA : Canonical a) (offset : ℕ) :
    Returns (a.set offset) fun n => n = offset ∨ Mem a n := by
  simp only [set]
  generalize wordsDef : a ++ List.replicate (max a.length (bitsetWordSize offset) - a.length) 0 = words
  have length : words.length = max a.length (offset / 8 + 1) := by
    simp [← wordsDef, bitsetWordSize]
  have memWords : ∀ n, Mem words n ↔ Mem a n := by
    intro n
    rw [Mem, Mem, ← wordsDef, byteAt_append_zeros]
  have inside : offset / 8 < words.length := by
    rw [length]
    omega
  have same : ∀ n, Mem (setBit words offset) n ↔ n = offset ∨ Mem a n := by
    intro n
    rw [mem_setBit, memWords, or_comm]
    simp [inside]
  refine returns_of_canonical ?_ same
  -- the last byte is the new bit's, or the last byte of `a`
  by_cases grown : a.length ≤ offset / 8 + 1
  · exact canonical_of_mem (by rw [length_setBit, length]; omega) ((same offset).mpr (.inl rfl))
  · obtain ⟨last, lastLength, mem⟩ := exists_mem_last canonicalA (List.ne_nil_of_length_pos (by omega))
    exact canonical_of_mem (by rw [length_setBit, length]; omega) ((same last).mpr (.inr mem))

/-- Build's first loop finds the greatest bit. -/
theorem foldl_max : ∀ (rest : List ℕ) (first : ℕ),
    rest.foldl (fun max b => if b > max then b else max) first ∈ first :: rest ∧
      ∀ b ∈ first :: rest, b ≤ rest.foldl (fun max b => if b > max then b else max) first
  | [], first => by simp
  | next :: rest, first => by
    rw [List.foldl_cons]
    obtain ⟨found, above⟩ := foldl_max rest (if next > first then next else first)
    have bounds : first ≤ (if next > first then next else first) ∧
        next ≤ (if next > first then next else first) := by
      split_ifs <;> omega
    have picked : (if next > first then next else first) = first ∨
        (if next > first then next else first) = next := by
      split_ifs <;> simp
    generalize (if next > first then next else first) = step at found above bounds picked
    refine ⟨?_, fun b mem => ?_⟩
    · rcases List.mem_cons.mp found with same | later
      · rcases picked with rfl | rfl <;> simp [same]
      · exact List.mem_cons_of_mem _ (List.mem_cons_of_mem _ later)
    · have stepLe := above step (List.mem_cons_self ..)
      rcases List.mem_cons.mp mem with rfl | mem
      · omega
      rcases List.mem_cons.mp mem with rfl | later
      · omega
      · exact above b (List.mem_cons_of_mem _ later)

theorem mem_foldl_setBit : ∀ (bits : List ℕ) (words : List UInt8),
    (∀ b ∈ bits, b / 8 < words.length) → ∀ n,
      (Mem (bits.foldl setBit words) n ↔ Mem words n ∨ n ∈ bits)
  | [], words, _, n => by simp
  | b :: rest, words, inside, n => by
    have insideRest : ∀ c ∈ rest, c / 8 < (setBit words b).length := fun c mem => by
      rw [length_setBit]
      exact inside c (List.mem_cons_of_mem _ mem)
    rw [List.foldl_cons, mem_foldl_setBit rest _ insideRest, mem_setBit, List.mem_cons]
    simp only [inside b (List.mem_cons_self ..), and_true]
    tauto

theorem build_returns (bits : List ℕ) : Returns (build bits) fun n => n ∈ bits := by
  cases bits with
  | nil => exact ⟨[], rfl, canonical_nil, by simp⟩
  | cons first rest =>
    obtain ⟨found, above⟩ := foldl_max rest first
    unfold build
    set max := rest.foldl (fun max b => if b > max then b else max) first
    have inside : ∀ b ∈ first :: rest,
        b / 8 < (List.replicate (bitsetWordSize max) (0 : UInt8)).length := by
      intro b mem
      have := above b mem
      simp only [List.length_replicate, bitsetWordSize, bitsetWidth_eq]
      omega
    have same := mem_foldl_setBit (first :: rest) (List.replicate (bitsetWordSize max) 0) inside
    simp only [byteAt_replicate_zero, Mem, testBit_zero, Bool.false_eq_true, false_or] at same
    refine returns_of_canonical ?_ same
    -- the greatest bit lands in the last byte
    refine canonical_of_mem (n := max) ?_ ((same max).mpr found)
    rw [length_foldl_setBit, List.length_replicate, bitsetWordSize, bitsetWidth_eq]

/-- The 32 entries of `Single`'s table hold the bytes `Build` writes. -/
theorem single_of_lt : ∀ bit, bit < 32 → single bit = build [bit] := by
  decide

theorem single_eq_build (bit : ℕ) : single bit = build [bit] := by
  by_cases small : bit < 32
  · exact single_of_lt bit small
  · rw [single, if_neg (by omega), if_neg (by omega), if_neg (by omega), if_neg small]
    rfl

theorem single_returns (bit : ℕ) : Returns (single bit) fun n => n = bit := by
  obtain ⟨c, result, canonical, same⟩ := build_returns [bit]
  exact ⟨c, single_eq_build bit ▸ result, canonical, fun n => (same n).trans List.mem_singleton⟩

/-! ## Queries -/

theorem overlaps_iff : a.overlaps b = true ↔ ∃ n, Mem a n ∧ Mem b n := by
  rw [overlaps, any_ne_zero_iff]
  simp only [Mem, byteAt_zipWith (fun _ => UInt8.zero_and) (fun _ => UInt8.and_zero), testBit_and,
    Bool.and_eq_true]

/-- The byte-wise test of `IsContainedBy`, for a shorter left side. -/
theorem all_contained_iff (shorter : a.length ≤ b.length) :
    (∀ x ∈ List.zipWith (fun left rigt => left &&& rigt == left) a b, id x = true) ↔
      ∀ i, byteAt a i &&& byteAt b i = byteAt a i := by
  have length : (List.zipWith (fun left rigt => left &&& rigt == left) a b).length = a.length := by
    simp [List.length_zipWith, shorter]
  constructor
  · intro within i
    by_cases inside : i < a.length
    · have listed := within _ (List.getElem_mem (length ▸ inside))
      rw [List.getElem_zipWith] at listed
      rw [byteAt_of_lt inside, byteAt_of_lt (by omega)]
      simpa using listed
    · rw [byteAt_of_length_le (Nat.le_of_not_lt inside), UInt8.zero_and]
  · intro within x listed
    obtain ⟨i, inside, rfl⟩ := List.mem_iff_getElem.mp listed
    have atI := within i
    rw [byteAt_of_lt (by omega), byteAt_of_lt (by omega)] at atI
    simp [List.getElem_zipWith, atI]

theorem isContainedBy_iff (canonicalA : Canonical a) :
    a.isContainedBy b = true ↔ ∀ n, Mem a n → Mem b n := by
  unfold isContainedBy
  by_cases longer : a.length > b.length
  · -- the last byte of `a` holds a member past the end of `b`
    rw [if_pos longer]
    obtain ⟨last, length, mem⟩ :=
      exists_mem_last canonicalA (List.ne_nil_of_length_pos (by omega))
    simp only [Bool.false_eq_true, false_iff, not_forall]
    exact ⟨last, mem, fun memB => absurd (lt_length_of_mem memB) (by omega)⟩
  · rw [if_neg longer, List.all_eq_true, all_contained_iff (Nat.le_of_not_lt longer)]
    exact forall_and_eq_self_iff

theorem popcount_eq_ncard : a.popcount = (den a).ncard := by
  rw [popcount, sum_onesCount8 a 0, den, ncard_mem]
  rfl

/-- `SingleBit` after it has found a bit: any other set bit gives `-1`. -/
theorem singleBitFrom_of_nonneg {offset : ℤ} (found : 0 ≤ offset) :
    ∀ (bytes : List UInt8) (i : ℕ),
      singleBitFrom bytes i offset = if elementsFrom bytes i = [] then offset else -1
  | [], _ => rfl
  | t :: rest, i => by
    by_cases zero : t = 0
    · subst zero
      rw [singleBitFrom, if_pos rfl, singleBitFrom_of_nonneg found rest (i + 1), elementsFrom,
        bits_eq_nil_iff.mpr rfl, List.map_nil, List.nil_append]
    · have listed : elementsFrom (t :: rest) i ≠ [] := by
        rw [elementsFrom]
        simp [bits_eq_nil_iff, zero]
      rw [singleBitFrom, if_neg zero, if_pos (.inl found), if_neg listed]

/-- `SingleBit` before it has found a bit. -/
theorem singleBitFrom_neg_one : ∀ (bytes : List UInt8) (i : ℕ),
    (∀ n, elementsFrom bytes i = [n] → singleBitFrom bytes i (-1) = n) ∧
      ((∀ n, elementsFrom bytes i ≠ [n]) → singleBitFrom bytes i (-1) = -1)
  | [], _ => ⟨fun _ listed => by simp [elementsFrom] at listed, fun _ => rfl⟩
  | t :: rest, i => by
    by_cases zero : t = 0
    · subst zero
      have skipped : elementsFrom (0 :: rest) i = elementsFrom rest (i + 1) := by
        rw [elementsFrom, bits_eq_nil_iff.mpr rfl, List.map_nil, List.nil_append]
      rw [singleBitFrom, if_pos rfl, skipped]
      exact singleBitFrom_neg_one rest (i + 1)
    have nonneg : ¬ ((-1 : ℤ) ≥ 0) := by decide
    rw [singleBitFrom, if_neg zero]
    simp only [nonneg, false_or]
    obtain ⟨tail, split⟩ : ∃ tail, bits t = trailingZeros8 t :: tail :=
      ⟨_, bits_clearLowest t zero⟩
    by_cases one : onesCount8 t = 1
    · -- a byte with one bit: the rest must have none
      have single : bits t = [trailingZeros8 t] := by
        rw [onesCount8, split, List.length_cons] at one
        have empty : tail = [] := List.length_eq_zero_iff.mp (by omega)
        rw [split, empty]
      have listed : elementsFrom (t :: rest) i =
          (8 * i + trailingZeros8 t) :: elementsFrom rest (i + 1) := by
        rw [elementsFrom, single]
        rfl
      have offset : (0 : ℤ) ≤ i * bitsetWidth + trailingZeros8 t := by
        simp only [bitsetWidth_eq, Nat.cast_ofNat]
        omega
      rw [if_neg (not_not.mpr one), singleBitFrom_of_nonneg offset, listed]
      refine ⟨fun n only => ?_, fun none => ?_⟩
      · obtain ⟨rfl, empty⟩ := List.cons_eq_cons.mp only
        rw [if_pos empty, bitsetWidth_eq]
        push_cast
        omega
      · have notEmpty : elementsFrom rest (i + 1) ≠ [] := fun empty =>
          none (8 * i + trailingZeros8 t) (by rw [empty])
        rw [if_neg notEmpty]
    · -- two bits in one byte
      rw [if_pos one]
      refine ⟨fun n only => ?_, fun _ => rfl⟩
      have length := congrArg List.length only
      rw [elementsFrom, List.length_append, List.length_map, split, List.length_cons,
        List.length_singleton] at length
      rw [onesCount8, split, List.length_cons] at one
      omega

theorem singleBit_of_den {n : ℕ} (only : den a = {n}) : a.singleBit = n := by
  have listed : elements a = [n] := elements_eq_singleton_iff.mpr fun m => Set.ext_iff.mp only m
  exact (singleBitFrom_neg_one a 0).1 n listed

theorem singleBit_of_not_single (none : ¬ ∃ n, den a = {n}) : a.singleBit = -1 := by
  refine (singleBitFrom_neg_one a 0).2 fun n listed => none ⟨n, ?_⟩
  exact Set.ext (elements_eq_singleton_iff.mp listed)

theorem forEachBit_eq (i : ℕ) (bitset : UInt8) :
    forEachBit i bitset = (bits bitset).map (8 * i + ·) := by
  fun_induction forEachBit i bitset with
  | case1 =>
    rw [bits_eq_nil_iff.mpr rfl, List.map_nil]
  | case2 bitset nonzero t rest =>
    rw [bits_clearLowest bitset nonzero, List.map_cons, rest, bitsetWidth_eq, Nat.mul_comm]

theorem forEach_eq_elements (bs : Bitset) : bs.forEach = elements bs := by
  suffices from_ : ∀ (bytes : List UInt8) (i : ℕ), forEachFrom bytes i = elementsFrom bytes i from
    from_ bs 0
  intro bytes
  induction bytes with
  | nil => exact fun _ => rfl
  | cons bitset rest ih =>
    intro i
    rw [forEachFrom, elementsFrom, forEachBit_eq, ih]

/-- On canonical inputs every operation returns a canonical Bitset holding the
expected set, so `toBitset` never panics; the queries answer for the sets; and
canonical Bitsets are equal exactly when their sets are. -/
theorem canonical_bitsets_are_sets (a b : Bitset) (n : ℕ) (ns : List ℕ)
    (canonicalA : Canonical a) (canonicalB : Canonical b) :
    (∃ c, a.or b = some c ∧ Canonical c ∧ den c = den a ∪ den b) ∧
    (∃ c, a.and b = some c ∧ Canonical c ∧ den c = den a ∩ den b) ∧
    (∃ c, a.andNot b = some c ∧ Canonical c ∧ den c = den a \ den b) ∧
    (∃ c, a.set n = some c ∧ Canonical c ∧ den c = insert n (den a)) ∧
    (∃ c, build ns = some c ∧ Canonical c ∧ den c = {m | m ∈ ns}) ∧
    (∃ c, single n = some c ∧ Canonical c ∧ den c = {n}) ∧
    (a.overlaps b = true ↔ (den a ∩ den b).Nonempty) ∧
    (a.isContainedBy b = true ↔ den a ⊆ den b) ∧
    a.popcount = (den a).ncard ∧
    (∀ m : ℕ, den a = {m} → a.singleBit = m) ∧
    ((¬ ∃ m, den a = {m}) → a.singleBit = -1) ∧
    a.forEach.Pairwise (· < ·) ∧ (∀ m, m ∈ a.forEach ↔ m ∈ den a) ∧
    (a = b ↔ den a = den b) := by
  refine ⟨(or_returns canonicalA canonicalB).den_eq, and_returns.den_eq,
    (andNot_returns canonicalA).den_eq, (set_returns canonicalA n).den_eq, (build_returns ns).den_eq,
    (single_returns n).den_eq, overlaps_iff, isContainedBy_iff canonicalA, popcount_eq_ncard,
    fun _ => singleBit_of_den, singleBit_of_not_single, ?_, ?_, eq_iff_den_eq canonicalA canonicalB⟩
  · rw [forEach_eq_elements]
    exact elements_sorted a
  · intro m
    rw [forEach_eq_elements, mem_elements]
    rfl

theorem canonical_bitsets_are_sets_small :
    Canonical [0x05] ∧ Canonical [0x00, 0x80] ∧
      ∃ c, Bitset.or [0x05] [0x00, 0x80] = some c ∧ Canonical c ∧
        den c = den [0x05] ∪ den [0x00, 0x80] :=
  ⟨by decide, by decide,
    (canonical_bitsets_are_sets [0x05] [0x00, 0x80] 3 [1, 9] (by decide) (by decide)).1⟩

end Bitset

end Vitess.Semantics
