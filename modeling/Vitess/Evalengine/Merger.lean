import Vitess.Evalengine.Sorter

/-!
# The k-way merger

`Merger` of `go/vt/vtgate/evalengine/api_compare.go`, which `MergeSort` uses to
merge the sorted streams of several shards. It holds rows tagged with the stream
each came from, as a heap under `Comparison.Less` on the rows. `Push` appends a
row and, once `Init` has set the order, sifts it up; `Init` builds the heap; `Pop`
takes the root, moves the last row to the root and sifts it down.

`m.less` is nil until `Init` sets it: `lessSet` records which. `MergeSort` calls
`Pop` only after `Init`, so `Pop` here sifts with the order, as Go does then.
`m.rows[:len(m.rows)-1]` is a `take`: `Pop` has read `m.rows[0]` by then, so the
bound is in range.

With `Less` a strict weak order, `Pop` on a heap returns a least row and leaves a
heap of the others (`Merger.pop_spec`), and `Push` after `Init` keeps a heap
(`Merger.push_spec`).
-/

namespace Vitess.Evalengine

open Vitess.Go Vitess.BinaryHeap
open scoped List

variable {α : Type*} (compare : α → α → ℤ)

/-- `mergeRow`: a row and the stream it came from. -/
structure MergeRow (α : Type*) where
  row : α
  source : ℕ

/-- `m.less`: `Comparison.Less` on the rows. -/
def mergeLess (a b : MergeRow α) : Bool :=
  lessRow compare a.row b.row

/-- `evalengine.Merger`; `lessSet` is `m.less != nil`. -/
structure Merger (α : Type*) where
  rows : List (MergeRow α)
  lessSet : Bool

/-- `Merger.Init`. -/
def Merger.init (m : Merger α) : Merger α :=
  { rows := heapify (mergeLess compare) m.rows, lessSet := true }

/-- `Merger.Push`. -/
def Merger.push (m : Merger α) (row : α) (source : ℕ) : Merger α :=
  let rows := m.rows ++ [⟨row, source⟩]
  { m with rows := if m.lessSet then up (mergeLess compare) rows (rows.length - 1) else rows }

/-- `Merger.Pop`. -/
def Merger.pop (m : Merger α) : Except RuntimeError (α × ℕ × Merger α) := do
  let x ← index m.rows 0
  let last ← index m.rows (m.rows.length - 1 : ℤ)
  let rows := (m.rows.set 0 last).take (m.rows.length - 1)
  return (x.row, x.source, { m with rows := (down (mergeLess compare) rows 0).1 })

/-- A strict weak order on the rows is one on the tagged rows. -/
instance [order : IsStrictWeakOrder α fun a b => lessRow compare a b = true] :
    IsStrictWeakOrder (MergeRow α) fun a b => mergeLess compare a b = true where
  irrefl a := order.irrefl a.row
  trans a b c := order.trans a.row b.row c.row
  incomp_trans a b c := order.incomp_trans a.row b.row c.row

/-! ### `Push` -/

variable {compare}

theorem Merger.push_of_not_lessSet {m : Merger α} (unset : m.lessSet = false) (row : α) (source : ℕ) :
    m.push compare row source = { m with rows := m.rows ++ [⟨row, source⟩] } := by
  simp [Merger.push, unset]

@[simp] theorem Merger.lessSet_push (m : Merger α) (row : α) (source : ℕ) :
    (m.push compare row source).lessSet = m.lessSet := rfl

theorem Merger.push_perm (m : Merger α) (row : α) (source : ℕ) :
    (m.push compare row source).rows ~ m.rows ++ [⟨row, source⟩] := by
  unfold Merger.push
  split
  · exact up_perm _ _ _
  · exact List.Perm.refl _

@[simp] theorem Merger.length_push (m : Merger α) (row : α) (source : ℕ) :
    (m.push compare row source).rows.length = m.rows.length + 1 := by
  rw [(m.push_perm row source).length_eq, List.length_append, List.length_singleton]

/-! ### `Pop` -/

/-- `Pop` on `n + 1` rows returns the root and keeps the rest, sifted down
from the root after the last row took its place. -/
theorem Merger.pop_eq {m : Merger α} {n : ℕ} (length : m.rows.length = n + 1) :
    ∃ root, m.rows[0]? = some root ∧ m.pop compare =
      .ok (root.row, root.source,
        { m with rows := (downLoop (mergeLess compare) ((swap m.rows n 0).take n) 0).1 }) := by
  obtain ⟨root, atRoot⟩ : ∃ root, m.rows[0]? = some root :=
    ⟨_, List.getElem?_eq_getElem (by omega)⟩
  obtain ⟨last, atLast⟩ : ∃ last, m.rows[n]? = some last :=
    ⟨_, List.getElem?_eq_getElem (by omega)⟩
  have lastIndex : ((m.rows.length : ℤ) - 1) = (n : ℤ) := by
    rw [length]
    omega
  have first : index m.rows 0 = .ok root := index_of_getElem? atRoot
  refine ⟨root, atRoot, ?_⟩
  rw [Merger.pop, first]
  dsimp only [bind, Except.bind]
  rw [lastIndex, index_of_getElem? atLast]
  dsimp only
  rw [length, Nat.add_sub_cancel, take_set_zero_eq_take_swap length atLast]
  rfl

theorem Merger.pop_ok {m : Merger α} (nonempty : m.rows ≠ []) :
    ∃ row source m', m.pop compare = .ok (row, source, m') := by
  obtain ⟨n, length⟩ :=
    Nat.exists_eq_add_one_of_ne_zero (Nat.pos_iff_ne_zero.mp (List.length_pos_iff.mpr nonempty))
  obtain ⟨root, _, popped⟩ := @Merger.pop_eq _ compare _ _ length
  exact ⟨_, _, _, popped⟩

/-- `Pop` takes one row out. -/
theorem Merger.length_pop {m m' : Merger α} {row : α} {source : ℕ}
    (popped : m.pop compare = .ok (row, source, m')) : m'.rows.length + 1 = m.rows.length := by
  cases length : m.rows.length with
  | zero =>
    rw [List.length_eq_zero_iff] at length
    rw [Merger.pop, length, index_nil] at popped
    cases popped
  | succ n =>
    obtain ⟨root, _, popped'⟩ := @Merger.pop_eq _ compare _ _ length
    rw [popped'] at popped
    cases popped
    have := (downLoop_take_swap_perm (mergeLess compare) length).length_eq
    rw [List.length_append, List.length_take, length] at this
    dsimp only
    omega

/-- `Pop` on a heap returns a least row with its stream, and leaves a heap of the
other rows. -/
theorem Merger.pop_spec [IsStrictWeakOrder α fun a b => lessRow compare a b = true] {m m' : Merger α}
    (ordered : HeapOrdered (mergeLess compare) m.rows) {row : α} {source : ℕ}
    (popped : m.pop compare = .ok (row, source, m')) :
    m.rows ~ ⟨row, source⟩ :: m'.rows ∧ HeapOrdered (mergeLess compare) m'.rows ∧
      m'.lessSet = m.lessSet ∧ ∀ y ∈ m.rows, lessRow compare y.row row = false := by
  obtain ⟨n, length⟩ : ∃ n, m.rows.length = n + 1 := ⟨_, (Merger.length_pop popped).symm⟩
  obtain ⟨root, atRoot, popped'⟩ := @Merger.pop_eq _ compare _ _ length
  rw [popped'] at popped
  cases popped
  have rootFirst : m.rows.take 1 = [root] := by
    rw [List.take_one, List.head?_eq_getElem?, atRoot, Option.toList_some]
  have perm := downLoop_take_swap_perm (mergeLess compare) length
  rw [rootFirst] at perm
  refine ⟨perm.symm.trans (List.perm_append_singleton _ _), downLoop_take_swap_heapOrdered length ordered,
    rfl, fun y member => ?_⟩
  obtain ⟨i, found⟩ := List.getElem?_of_mem member
  exact ordered.root_not_lt atRoot i y found

/-- `Push` after `Init` keeps a heap. -/
theorem Merger.push_spec [IsStrictWeakOrder α fun a b => lessRow compare a b = true] {m : Merger α}
    (ordered : HeapOrdered (mergeLess compare) m.rows) (set : m.lessSet = true) (row : α) (source : ℕ) :
    HeapOrdered (mergeLess compare) (m.push compare row source).rows := by
  have ready := ordered.upReady_append ⟨row, source⟩
  simpa [Merger.push, set] using up_heapOrdered _ _ ready

end Vitess.Evalengine
