import Vitess.Go.Slice

/-!
# Vindex keys of a multi-column `IN` route

`generateRowColValues` and `buildRowColValues` of
`go/vt/vtgate/engine/routing.go`. Each column of a multi-column vindex
contributes the list of its values (one value for an equality, the tuple of an
`IN`), and the route asks the vindex to map every combination. The first column's
values become one-element slice literals; each further column is combined by
`append(firstPart, secondPart)` for every prefix `firstPart` and every value
`secondPart`.

The columns are taken after `env.Evaluate`: `multiColValues` is the list of the
per-column value lists, and the outer slices of slices are lists, since nothing
aliases them. The inner slices are Go slices over a heap (`Vitess.Go.Slice`), so
that `append` writes in place when a prefix has spare capacity.
-/

namespace Vitess.Engine

open Vitess.Go

variable {α : Type*} [Inhabited α] (grow : ℕ → ℕ → ℕ)

/-- Every prefix of `left` extended by every value of `right`, in order. -/
def buildRowColValues (heap : Heap α) (left : List Slice) (right : List α) :
    Heap α × List Slice :=
  left.foldl (fun acc firstPart =>
    right.foldl (fun acc secondPart =>
      let appended := append grow acc.1 firstPart secondPart
      (appended.1, acc.2 ++ [appended.2])) acc) (heap, [])

/-- The vindex keys of the combinations of the column values. Go indexes
`multiColValues[0]`, which panics when there are no columns: `none`. -/
def generateRowColValues : List (List α) → Option (Heap α × List Slice)
  | [] => none
  | first :: rest =>
    let rowColValues := first.foldl (fun acc firstCol =>
      let lit := literal acc.1 [firstCol]
      (lit.1, acc.2 ++ [lit.2])) (Heap.empty, [])
    some (rest.foldl (fun acc column => buildRowColValues grow acc.1 acc.2 column) rowColValues)

/-- The tuples the vindex is given, as the heap shows them when it maps them. -/
def rowTuples (result : Heap α × List Slice) : List (List α) :=
  result.2.map result.1.read

/-- The Cartesian product of the column lists, tuples in column order and in
lexicographic order of the lists' positions: what the route needs mapped. -/
def cartesianProduct : List (List α) → List (List α)
  | [] => [[]]
  | column :: rest => column.flatMap fun value => (cartesianProduct rest).map (value :: ·)

variable {grow}

/-- `c1 = 1 AND c2 = 2 AND c3 = 3 AND c4 IN (10, 20)`. A runtime that grows a
one-element slice of values to capacity 2 and a two-element one to capacity 4
(as Go's does for `sqltypes.Value`) leaves the prefix `[1, 2, 3]` with capacity
4; both appends of the last column write into its spare slot, and the vindex
sees `(1, 2, 3, 20)` twice and never `(1, 2, 3, 10)`. -/
theorem in_list_tuples_share_last_column (growFromOne : grow 2 1 = 2)
    (growFromTwo : grow 3 2 = 4) :
    (generateRowColValues grow [[1], [2], [3], [10, 20]]).map rowTuples =
        some [[1, 2, 3, 20], [1, 2, 3, 20]] ∧
      cartesianProduct [[1], [2], [3], [10, 20]] = [[1, 2, 3, 10], [1, 2, 3, 20]] := by
  refine ⟨?_, rfl⟩
  simp [generateRowColValues, buildRowColValues, literal, append, Heap.alloc, Heap.write,
    Heap.read, Heap.empty, rowTuples, growFromOne, growFromTwo]

/-- The rule of Go's `nextslicecap` for small slices meets both hypotheses. -/
theorem in_list_tuples_share_last_column_doubling :
    doublingGrowth 2 1 = 2 ∧ doublingGrowth 3 2 = 4 ∧
      (generateRowColValues doublingGrowth [[1], [2], [3], [10, 20]]).map rowTuples =
          some [[1, 2, 3, 20], [1, 2, 3, 20]] ∧
        cartesianProduct [[1], [2], [3], [10, 20]] = [[1, 2, 3, 10], [1, 2, 3, 20]] :=
  ⟨rfl, rfl, in_list_tuples_share_last_column rfl rfl⟩

end Vitess.Engine
