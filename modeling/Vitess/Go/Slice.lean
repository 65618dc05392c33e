import Mathlib.Data.List.Basic
import Mathlib.Data.Int.Order.Basic
import Mathlib.Algebra.Group.Nat.Defs

/-!
# Go slices over a heap of backing arrays

A Go slice is a window on a backing array: the array it points to, its length
and its capacity. Arrays live in a heap and are identified by their index in it.
`append` writes in place when the slice has spare capacity, and every slice that
shares the array then sees the write; otherwise it allocates a new array, copies
the elements into it, and leaves every existing array as it was.

How much capacity the runtime gives a grown slice (`growslice`: `nextslicecap`
rounded up to a size class of the allocator) is a parameter
`grow newLen oldCap`; a statement that needs more of it says so in a
hypothesis. Every slice here starts at index 0 of its array: nothing modelled
reslices.
-/

namespace Vitess.Go

/-- A slice header: backing array, length and capacity. -/
structure Slice where
  array : ℕ
  len : ℕ
  cap : ℕ
  deriving DecidableEq, Repr

/-- The backing arrays allocated so far, by identity. -/
structure Heap (α : Type*) where
  arrays : List (List α)
  deriving DecidableEq, Repr

namespace Heap

variable {α : Type*}

/-- The heap before any allocation. -/
def empty : Heap α :=
  ⟨[]⟩

/-- A fresh array holding `contents`, and its identity. -/
def alloc (heap : Heap α) (contents : List α) : Heap α × ℕ :=
  (⟨heap.arrays ++ [contents]⟩, heap.arrays.length)

/-- Element `index` of array `array` set to `x`. -/
def write (heap : Heap α) (array index : ℕ) (x : α) : Heap α :=
  ⟨heap.arrays.modify array fun contents => contents.set index x⟩

/-- The elements a slice shows: the first `len` of its array. -/
def read (heap : Heap α) (s : Slice) : List α :=
  (heap.arrays.getD s.array []).take s.len

/-- The slice points into the heap and its array is exactly `cap` long. -/
def Holds (heap : Heap α) (s : Slice) : Prop :=
  ∃ contents, heap.arrays[s.array]? = some contents ∧ contents.length = s.cap ∧ s.len ≤ s.cap

end Heap

variable {α : Type*}

/-- The slice literal `[]T{x₁, …, xₙ}`: a new array of exactly its elements. -/
def literal (heap : Heap α) (xs : List α) : Heap α × Slice :=
  let (heap, array) := heap.alloc xs
  (heap, ⟨array, xs.length, xs.length⟩)

/-- `append(s, x)`. With spare capacity the element goes into the shared array;
otherwise a new array of capacity `grow (len + 1) cap` receives a copy, the new
element and zero values. -/
def append [Inhabited α] (grow : ℕ → ℕ → ℕ) (heap : Heap α) (s : Slice) (x : α) :
    Heap α × Slice :=
  if s.len < s.cap then
    (heap.write s.array s.len x, { s with len := s.len + 1 })
  else
    let newCap := grow (s.len + 1) s.cap
    let (heap', array) :=
      heap.alloc (heap.read s ++ x :: List.replicate (newCap - (s.len + 1)) default)
    (heap', ⟨array, s.len + 1, newCap⟩)

/-- The small-slice rule of `nextslicecap`: double the capacity, or take the
needed length when doubling is not enough. -/
def doublingGrowth (newLen oldCap : ℕ) : ℕ :=
  if 2 * oldCap < newLen then newLen else 2 * oldCap

/-! ### Indexing and slice expressions on slice values

Where no slice shares its array with another, a slice is its list of elements.
Go checks a slice expression `s[low:high]` against the capacity; the code modelled
with `sliceExpr` never slices past the length, and at a negative bound either check
fails, so the length is the bound checked here. -/

/-- The run-time panics of the modelled code. -/
inductive RuntimeError where
  | indexOutOfRange
  | sliceBoundsOutOfRange
  /-- `makeslice: len out of range`. -/
  | makeSliceLenOutOfRange
  deriving DecidableEq, Repr

/-- `s[i]`, or a panic unless `0 <= i < len(s)`. -/
def index (xs : List α) (i : ℤ) : Except RuntimeError α :=
  match xs[i.toNat]? with
  | some x => if 0 ≤ i then .ok x else .error .indexOutOfRange
  | none => .error .indexOutOfRange

/-- `s[i] = x`, or a panic unless `0 <= i < len(s)`. -/
def setIndex (xs : List α) (i : ℤ) (x : α) : Except RuntimeError (List α) :=
  if 0 ≤ i ∧ i < xs.length then .ok (xs.set i.toNat x) else .error .indexOutOfRange

/-- The allocator's bound on a slice's size in bytes on 64-bit platforms
(`runtime.maxAlloc`). -/
def maxAlloc : ℕ := 2 ^ 48

/-- `make([]T, n)` for a one-byte `T`, with `zero` its zero value: a panic when `n`
is negative or past the allocator's bound. -/
def makeSlice (zero : α) (n : ℤ) : Except RuntimeError (List α) :=
  if 0 ≤ n ∧ n ≤ maxAlloc then .ok (List.replicate n.toNat zero) else .error .makeSliceLenOutOfRange

/-- `copy(dst, src)`: the first `min(len(dst), len(src))` elements of `src` over
those of `dst`. -/
def copySlice (dst src : List α) : List α :=
  src.take dst.length ++ dst.drop src.length

/-- `s[low:high]`, or a panic unless `0 <= low <= high <= len(s)`. -/
def sliceExpr (xs : List α) (low high : ℤ) : Except RuntimeError (List α) :=
  if 0 ≤ low ∧ low ≤ high ∧ high ≤ xs.length then
    .ok ((xs.drop low.toNat).take (high - low).toNat)
  else .error .sliceBoundsOutOfRange

theorem index_nil (i : ℤ) : index ([] : List α) i = .error .indexOutOfRange := rfl

theorem index_of_getElem? {xs : List α} {i : ℕ} {x : α} (found : xs[i]? = some x) :
    index xs i = .ok x := by
  rw [index, Int.toNat_natCast, found]
  exact if_pos (Int.natCast_nonneg i)

theorem sliceExpr_of_le {xs : List α} {low high : ℕ} (ordered : low ≤ high)
    (within : high ≤ xs.length) :
    sliceExpr xs low high = .ok ((xs.drop low).take (high - low)) := by
  rw [sliceExpr, if_pos (by omega)]
  congr
  omega

theorem sliceExpr_of_within {xs : List α} {low high : ℤ} (start : 0 ≤ low) (ordered : low ≤ high)
    (within : high ≤ xs.length) :
    sliceExpr xs low high = .ok ((xs.drop low.toNat).take (high - low).toNat) := by
  rw [sliceExpr, if_pos ⟨start, ordered, within⟩]

/-- A slice expression that does not panic had its bounds in order. -/
theorem sliceExpr_ok {xs ys : List α} {low high : ℤ} (sliced : sliceExpr xs low high = .ok ys) :
    0 ≤ low ∧ low ≤ high ∧ high ≤ xs.length := by
  unfold sliceExpr at sliced
  split at sliced
  · assumption
  · cases sliced

theorem sliceExpr_of_lt_low {xs : List α} {low high : ℤ} (below : high < low) :
    sliceExpr xs low high = .error .sliceBoundsOutOfRange := by
  rw [sliceExpr, if_neg (by omega)]

end Vitess.Go
