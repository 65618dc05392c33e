import Mathlib.Data.Nat.Bitwise
import Mathlib.Data.Set.Card
import Mathlib.Data.List.Range
import Mathlib.Data.FinEnum

/-!
# Sets of naturals as bytes

A list of bytes stands for a set of naturals: bit `k` of byte `i` says whether
`8 * i + k` is in the set (`Mem`). Reading past the end gives a zero byte
(`byteAt`), so two lists hold the same set exactly when they agree at every
byte (`byteAt_ext_iff`). A list is `Canonical` when its last byte is not zero;
canonical lists that hold the same set are equal (`eq_iff_mem_iff`).

`elements` lists the set of a byte list in increasing order (`mem_elements`,
`elements_sorted`). `onesCount8` and `trailingZeros8` are Go's `math/bits`
functions on bytes, stated by what they count; `bits_clearLowest` is the
lowest-bit trick `b ^ (b & -b)` on bytes, checked on all of them.
-/

namespace Vitess.ByteSet

/-! ## Bits of a byte -/

section Byte

variable {a b : UInt8} {k : ℕ}

theorem byte_ext (same : ∀ k < 8, a.toNat.testBit k = b.toNat.testBit k) : a = b := by
  apply UInt8.toNat_inj.mp
  apply Nat.eq_of_testBit_eq
  intro k
  by_cases low : k < 8
  · exact same k low
  · have high : 2 ^ 8 ≤ 2 ^ k := Nat.pow_le_pow_right (by decide) (by omega)
    rw [Nat.testBit_lt_two_pow (lt_of_lt_of_le a.toNat_lt high),
      Nat.testBit_lt_two_pow (lt_of_lt_of_le b.toNat_lt high)]

@[simp] theorem testBit_zero : (0 : UInt8).toNat.testBit k = false := by
  simp

@[simp] theorem testBit_or : (a ||| b).toNat.testBit k = (a.toNat.testBit k || b.toNat.testBit k) := by
  rw [UInt8.toNat_or, Nat.testBit_or]

@[simp] theorem testBit_and : (a &&& b).toNat.testBit k = (a.toNat.testBit k && b.toNat.testBit k) := by
  rw [UInt8.toNat_and, Nat.testBit_and]

@[simp] theorem testBit_not : (~~~a).toNat.testBit k = (decide (k < 8) && !a.toNat.testBit k) := by
  have complement : UInt8.size - 1 - a.toNat = 2 ^ 8 - (a.toNat + 1) := by
    have := a.toNat_lt
    simp only [UInt8.size]
    omega
  rw [UInt8.toNat_not, complement]
  exact Nat.testBit_two_pow_sub_succ a.toNat_lt k

theorem toNat_one_shiftLeft (small : k < 8) : ((1 : UInt8) <<< UInt8.ofNat k).toNat = 2 ^ k := by
  have shift : (UInt8.ofNat k).toNat = k := by
    rw [UInt8.toNat_ofNat', Nat.mod_eq_of_lt (by omega)]
  rw [UInt8.toNat_shiftLeft, shift, Nat.mod_eq_of_lt small, UInt8.toNat_one, Nat.one_shiftLeft,
    Nat.mod_eq_of_lt (Nat.pow_lt_pow_right (by decide) small)]

theorem ne_zero_of_testBit (set : b.toNat.testBit k = true) : b ≠ 0 := by
  rintro rfl
  simp at set

end Byte

/-! ## The set of a byte list -/

/-- The byte at `i`, zero past the end. -/
def byteAt (bytes : List UInt8) (i : ℕ) : UInt8 := (bytes[i]?).getD 0

/-- `n` is in the set: bit `n % 8` of byte `n / 8` is one. -/
def Mem (bytes : List UInt8) (n : ℕ) : Prop := (byteAt bytes (n / 8)).toNat.testBit (n % 8) = true

instance (bytes : List UInt8) (n : ℕ) : Decidable (Mem bytes n) :=
  inferInstanceAs (Decidable (_ = true))

/-- No trailing zero byte. -/
def Canonical (bytes : List UInt8) : Prop := bytes.getLast? ≠ some 0

instance (bytes : List UInt8) : Decidable (Canonical bytes) :=
  inferInstanceAs (Decidable (_ ≠ _))

variable {bytes x y : List UInt8}

theorem byteAt_of_lt {i : ℕ} (inside : i < bytes.length) : byteAt bytes i = bytes[i] := by
  simp [byteAt, List.getElem?_eq_getElem inside]

theorem byteAt_of_length_le {i : ℕ} (outside : bytes.length ≤ i) : byteAt bytes i = 0 := by
  simp [byteAt, List.getElem?_eq_none outside]

@[simp] theorem byteAt_nil (i : ℕ) : byteAt [] i = 0 := rfl

@[simp] theorem not_mem_nil (n : ℕ) : ¬ Mem [] n := by
  simp [Mem]

/-- The first byte holds `0` to `7`; the rest hold the others, shifted by eight. -/
theorem mem_cons_iff {b : UInt8} {n : ℕ} :
    Mem (b :: bytes) n ↔ n < 8 ∧ b.toNat.testBit n = true ∨ 8 ≤ n ∧ Mem bytes (n - 8) := by
  by_cases low : n < 8
  · have first : n / 8 = 0 := Nat.div_eq_of_lt low
    simp [Mem, byteAt, first, Nat.mod_eq_of_lt low, low]
  · have later : n / 8 = (n - 8) / 8 + 1 := by omega
    have bit : (n - 8) % 8 = n % 8 := by omega
    simp [Mem, byteAt, later, bit, low, Nat.le_of_not_lt low]

/-- Each byte is fixed by the eight numbers it stands for. -/
theorem byteAt_ext_iff : (∀ i, byteAt x i = byteAt y i) ↔ ∀ n, Mem x n ↔ Mem y n := by
  constructor
  · intro same n
    rw [Mem, Mem, same]
  · intro same i
    apply byte_ext
    intro k small
    have atBit := same (8 * i + k)
    have index : (8 * i + k) / 8 = i := by omega
    have bit : (8 * i + k) % 8 = k := by omega
    rw [Mem, Mem, index, bit] at atBit
    exact Bool.eq_iff_iff.mpr atBit

theorem canonical_nil : Canonical [] := by
  simp [Canonical]

/-- A list whose last byte is not zero is canonical. -/
theorem canonical_of_byteAt {n : ℕ} (length : bytes.length = n + 1) (last : byteAt bytes n ≠ 0) :
    Canonical bytes := by
  have inside : n < bytes.length := by omega
  rw [byteAt_of_lt inside] at last
  rw [Canonical, List.getLast?_eq_getElem?, length, Nat.add_sub_cancel,
    List.getElem?_eq_getElem inside]
  simpa using last

theorem byteAt_last_ne_zero (canonical : Canonical bytes) (nonempty : bytes ≠ []) :
    byteAt bytes (bytes.length - 1) ≠ 0 := by
  have inside : bytes.length - 1 < bytes.length :=
    Nat.sub_lt (List.length_pos_iff.mpr nonempty) Nat.one_pos
  rw [Canonical, List.getLast?_eq_getElem?, List.getElem?_eq_getElem inside] at canonical
  rw [byteAt_of_lt inside]
  simpa using canonical

theorem length_le_of_byteAt_eq (canonical : Canonical x) (same : ∀ i, byteAt x i = byteAt y i) :
    x.length ≤ y.length := by
  by_contra longer
  have nonempty : x ≠ [] := by
    rintro rfl
    simp at longer
  have last := byteAt_last_ne_zero canonical nonempty
  rw [same, byteAt_of_length_le (by omega)] at last
  exact last rfl

theorem eq_of_byteAt_eq (canonicalX : Canonical x) (canonicalY : Canonical y)
    (same : ∀ i, byteAt x i = byteAt y i) : x = y := by
  have length : x.length = y.length :=
    Nat.le_antisymm (length_le_of_byteAt_eq canonicalX same)
      (length_le_of_byteAt_eq canonicalY fun i => (same i).symm)
  apply List.ext_getElem length
  intro i insideX insideY
  have atI := same i
  rwa [byteAt_of_lt insideX, byteAt_of_lt insideY] at atI

/-- Canonical lists are equal exactly when they hold the same set. -/
theorem eq_iff_mem_iff (canonicalX : Canonical x) (canonicalY : Canonical y) :
    x = y ↔ ∀ n, Mem x n ↔ Mem y n := by
  constructor
  · rintro rfl n
    rfl
  · intro same
    exact eq_of_byteAt_eq canonicalX canonicalY (byteAt_ext_iff.mpr same)

theorem byteAt_ne_zero_iff {i : ℕ} : byteAt bytes i ≠ 0 ↔ ∃ k < 8, Mem bytes (8 * i + k) := by
  have index : ∀ k < 8, (8 * i + k) / 8 = i := by omega
  have bit : ∀ k < 8, (8 * i + k) % 8 = k := by omega
  constructor
  · intro nonzero
    by_contra none
    refine nonzero (byte_ext fun k small => ?_)
    have absent : ¬ Mem bytes (8 * i + k) := fun mem => none ⟨k, small, mem⟩
    rw [Mem, index k small, bit k small] at absent
    simpa using absent
  · rintro ⟨k, small, mem⟩
    rw [Mem, index k small, bit k small] at mem
    exact ne_zero_of_testBit mem

theorem lt_length_of_mem {n : ℕ} (mem : Mem bytes n) : n / 8 < bytes.length := by
  by_contra outside
  rw [Mem, byteAt_of_length_le (by omega)] at mem
  simp at mem

/-- A list whose last byte holds a member is canonical. -/
theorem canonical_of_mem {n : ℕ} (length : bytes.length = n / 8 + 1) (mem : Mem bytes n) :
    Canonical bytes := by
  refine canonical_of_byteAt length (byteAt_ne_zero_iff.mpr ⟨n % 8, Nat.mod_lt n (by decide), ?_⟩)
  rwa [Nat.div_add_mod]

/-- The last byte of a canonical list holds a member. -/
theorem exists_mem_last (canonical : Canonical bytes) (nonempty : bytes ≠ []) :
    ∃ n, n / 8 + 1 = bytes.length ∧ Mem bytes n := by
  obtain ⟨k, small, mem⟩ := byteAt_ne_zero_iff.mp (byteAt_last_ne_zero canonical nonempty)
  have positive := List.length_pos_iff.mpr nonempty
  exact ⟨8 * (bytes.length - 1) + k, by omega, mem⟩

theorem any_ne_zero_iff : bytes.any (· != 0) = true ↔ ∃ n, Mem bytes n := by
  rw [List.any_eq_true]
  constructor
  · rintro ⟨byte, inList, nonzero⟩
    obtain ⟨i, inside, rfl⟩ := List.mem_iff_getElem.mp inList
    have atI : byteAt bytes i ≠ 0 := by
      rw [byteAt_of_lt inside]
      simpa using nonzero
    obtain ⟨k, _, mem⟩ := byteAt_ne_zero_iff.mp atI
    exact ⟨_, mem⟩
  · rintro ⟨n, mem⟩
    have inside := lt_length_of_mem mem
    have nonzero : byteAt bytes (n / 8) ≠ 0 := ne_zero_of_testBit mem
    rw [byteAt_of_lt inside] at nonzero
    exact ⟨_, List.getElem_mem inside, by simpa using nonzero⟩

theorem and_eq_self_iff {a b : UInt8} :
    a &&& b = a ↔ ∀ k < 8, a.toNat.testBit k = true → b.toNat.testBit k = true := by
  constructor
  · intro same k _ set
    have atK := congrArg (fun byte : UInt8 => byte.toNat.testBit k) same
    simp only [testBit_and, set, Bool.true_and] at atK
    exact atK
  · intro within
    refine byte_ext fun k small => ?_
    rw [testBit_and]
    cases set : a.toNat.testBit k
    · rfl
    · simp [within k small set]

/-- Every byte of `x` is within the byte of `y` exactly when the set of `x` is
within that of `y`. -/
theorem forall_and_eq_self_iff :
    (∀ i, byteAt x i &&& byteAt y i = byteAt x i) ↔ ∀ n, Mem x n → Mem y n := by
  simp only [and_eq_self_iff]
  constructor
  · intro within n mem
    exact within (n / 8) (n % 8) (Nat.mod_lt n (by decide)) mem
  · intro within i k small set
    have index : (8 * i + k) / 8 = i := by omega
    have bit : (8 * i + k) % 8 = k := by omega
    have atBit := within (8 * i + k)
    rw [Mem, Mem, index, bit] at atBit
    exact atBit set

/-! ## Byte-wise operations -/

theorem byteAt_zipWith {f : UInt8 → UInt8 → UInt8} (left : ∀ b, f 0 b = 0) (right : ∀ a, f a 0 = 0)
    (i : ℕ) : byteAt (List.zipWith f x y) i = f (byteAt x i) (byteAt y i) := by
  simp only [byteAt, List.getElem?_zipWith]
  cases x[i]? <;> cases y[i]? <;> simp [left, right]

theorem byteAt_modify {f : UInt8 → UInt8} {j : ℕ} (i : ℕ) :
    byteAt (bytes.modify j f) i =
      if j = i ∧ i < bytes.length then f (byteAt bytes i) else byteAt bytes i := by
  simp only [byteAt, List.getElem?_modify]
  by_cases inside : i < bytes.length
  · simp [inside]
  · simp [inside]

@[simp] theorem byteAt_append_zeros (k i : ℕ) :
    byteAt (bytes ++ List.replicate k 0) i = byteAt bytes i := by
  by_cases inside : i < bytes.length
  · simp [byteAt, List.getElem?_append_left inside]
  · rw [byteAt, List.getElem?_append_right (Nat.le_of_not_lt inside), List.getElem?_replicate,
      byteAt_of_length_le (Nat.le_of_not_lt inside)]
    split <;> rfl

@[simp] theorem byteAt_replicate_zero (k i : ℕ) : byteAt (List.replicate k 0) i = 0 := by
  simpa using @byteAt_append_zeros [] k i

/-- Cutting off bytes that are all zero keeps the set. -/
theorem byteAt_take {r : ℕ} (zeros : ∀ j, r ≤ j → byteAt bytes j = 0) (i : ℕ) :
    byteAt (bytes.take r) i = byteAt bytes i := by
  by_cases kept : i < r
  · simp [byteAt, kept]
  · rw [zeros i (Nat.le_of_not_lt kept), byteAt, List.getElem?_take, if_neg kept]
    rfl

/-! ## Listing the set -/

/-- The set bits of a byte, increasing. -/
def bits (b : UInt8) : List ℕ := (List.range 8).filter fun k => b.toNat.testBit k

/-- Go's `bits.OnesCount8`. -/
def onesCount8 (b : UInt8) : ℕ := (bits b).length

/-- Go's `bits.TrailingZeros8`: the lowest set bit, and `8` for zero. -/
def trailingZeros8 (b : UInt8) : ℕ := (bits b).headD 8

/-- The numbers of a byte list read from byte `i` on, increasing. -/
def elementsFrom : List UInt8 → ℕ → List ℕ
  | [], _ => []
  | b :: rest, i => (bits b).map (8 * i + ·) ++ elementsFrom rest (i + 1)

def elements (bytes : List UInt8) : List ℕ := elementsFrom bytes 0

theorem mem_bits {b : UInt8} {k : ℕ} : k ∈ bits b ↔ k < 8 ∧ b.toNat.testBit k = true := by
  simp [bits]

theorem bits_sorted (b : UInt8) : (bits b).Pairwise (· < ·) :=
  List.pairwise_lt_range.filter _

theorem bits_eq_nil_iff {b : UInt8} : bits b = [] ↔ b = 0 := by
  constructor
  · intro empty
    apply byte_ext
    intro k small
    have absent : k ∉ bits b := by simp [empty]
    rw [mem_bits] at absent
    simpa [small] using absent
  · rintro rfl
    simp [bits]

/-- The lowest-bit trick on bytes: `b & -b` is the lowest set bit, so
`b ^ (b & -b)` drops it and leaves a smaller byte. -/
theorem bits_clearLowest : ∀ b : UInt8, b ≠ 0 →
    bits b = trailingZeros8 b :: bits (b ^^^ (b &&& -b)) := by
  decide +kernel

theorem clearLowest_lt : ∀ b : UInt8, b ≠ 0 → (b ^^^ (b &&& -b)).toNat < b.toNat := by
  decide +kernel

theorem mem_elementsFrom {n : ℕ} : ∀ {bytes : List UInt8} {i : ℕ},
    n ∈ elementsFrom bytes i ↔ 8 * i ≤ n ∧ Mem bytes (n - 8 * i)
  | [], i => by simp [elementsFrom]
  | b :: rest, i => by
    rw [elementsFrom, List.mem_append, mem_elementsFrom, mem_cons_iff, List.mem_map]
    simp only [mem_bits]
    constructor
    · rintro (⟨k, ⟨small, set⟩, rfl⟩ | ⟨above, later⟩)
      · exact ⟨by omega, .inl ⟨by omega, by simpa using set⟩⟩
      · have shift : n - 8 * i - 8 = n - 8 * (i + 1) := by omega
        exact ⟨by omega, .inr ⟨by omega, shift ▸ later⟩⟩
    · rintro ⟨above, ⟨small, set⟩ | ⟨high, later⟩⟩
      · exact .inl ⟨n - 8 * i, ⟨small, set⟩, by omega⟩
      · have shift : n - 8 * i - 8 = n - 8 * (i + 1) := by omega
        exact .inr ⟨by omega, shift ▸ later⟩

theorem mem_elements {n : ℕ} : n ∈ elements bytes ↔ Mem bytes n := by
  simp [elements, mem_elementsFrom]

theorem elementsFrom_sorted : ∀ (bytes : List UInt8) (i : ℕ),
    (elementsFrom bytes i).Pairwise (· < ·)
  | [], _ => List.Pairwise.nil
  | b :: rest, i => by
    rw [elementsFrom, List.pairwise_append, List.pairwise_map]
    refine ⟨(bits_sorted b).imp (by omega), elementsFrom_sorted rest (i + 1), ?_⟩
    -- byte `i` stands for numbers below `8 * (i + 1)`, where the rest begins
    intro n first m later
    obtain ⟨k, inByte, rfl⟩ := List.mem_map.mp first
    have small := (mem_bits.mp inByte).1
    have above := (mem_elementsFrom.mp later).1
    omega

theorem elements_sorted (bytes : List UInt8) : (elements bytes).Pairwise (· < ·) :=
  elementsFrom_sorted bytes 0

theorem sum_onesCount8 : ∀ (bytes : List UInt8) (i : ℕ),
    (bytes.map onesCount8).sum = (elementsFrom bytes i).length
  | [], _ => rfl
  | b :: rest, i => by
    rw [List.map_cons, List.sum_cons, sum_onesCount8 rest (i + 1), elementsFrom, List.length_append,
      List.length_map, onesCount8]

/-- The listing is a single number exactly when the set is. -/
theorem elements_eq_singleton_iff {n : ℕ} : elements bytes = [n] ↔ ∀ m, Mem bytes m ↔ m = n := by
  simp only [← mem_elements]
  constructor
  · intro single m
    simp [single]
  · intro only
    have sorted := elements_sorted bytes
    match listed : elements bytes, sorted with
    | [], _ => simpa [listed] using only n
    | [first], _ => simpa [listed] using only first
    | first :: second :: rest, sorted =>
      -- two members of a one-member set would be equal, but the listing increases
      have same : first = second := by
        have atFirst := (only first).mp (by simp [listed])
        have atSecond := (only second).mp (by simp [listed])
        rw [atFirst, atSecond]
      have increasing := List.rel_of_pairwise_cons sorted (List.mem_cons_self ..)
      omega

/-- The set of a byte list has as many members as its listing. -/
theorem ncard_mem (bytes : List UInt8) : {n | Mem bytes n}.ncard = (elements bytes).length := by
  have listed : {n | Mem bytes n} = ↑(elements bytes).toFinset := by
    ext n
    simp [mem_elements]
  rw [listed, Set.ncard_coe_finset,
    List.toFinset_card_of_nodup ((elements_sorted bytes).imp Nat.ne_of_lt)]

end Vitess.ByteSet
