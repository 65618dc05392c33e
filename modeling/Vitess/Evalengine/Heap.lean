import Vitess.Data.BinaryHeap

/-!
# The heap helpers of the comparison API

`heapify`, `fix`, `down` and `up` of `go/vt/vtgate/evalengine/api_compare.go`,
generic over the element type and a `less` function, on a slice read as a binary
tree in level order (`Vitess.BinaryHeap`). `down` sifts the element at `i0`
toward the leaves, swapping it with its smaller child while that child is
`less`, and reports whether it moved; `up` sifts toward the root; `heapify`
sifts down every position that has children, last first; `fix` sifts down and,
when nothing moved, up.

The slices are lists. Go's `left < 0` test guards against an overflowed index,
which no list reaches. The branches where an index is out of range are never
taken: `down` reads only positions it checked, and `up` is only given an index
of the slice.

For a `less` that is a strict weak order, each helper only permutes the slice,
and `down` and `up` restore the heap order from where a sift starts
(`downLoop_heapOrderedFrom`, `up_heapOrdered`), so `heapify` builds a heap
(`heapify_heapOrdered`).
-/

namespace Vitess.Evalengine

open Vitess.BinaryHeap
open scoped List

variable {α : Type*} (less : α → α → Bool)

/-- "find the smallest child": the right child when it exists and is `less`
than the left one, else the left one. -/
def smallestChild (h : List α) (i : ℕ) : ℕ :=
  match h[2 * i + 2]?, h[2 * i + 1]? with
  | some right, some left => if less right left then 2 * i + 2 else 2 * i + 1
  | _, _ => 2 * i + 1

theorem lt_smallestChild (h : List α) (i : ℕ) : i < smallestChild less h i := by
  unfold smallestChild
  split
  · split <;> omega
  · omega

/-- The loop of `down`: the slice, and the position the element stopped at. -/
def downLoop (h : List α) (i : ℕ) : List α × ℕ :=
  if 2 * i + 1 < h.length then
    match h[smallestChild less h i]?, h[i]? with
    | some child, some x =>
      if less child x then downLoop (swap h i (smallestChild less h i)) (smallestChild less h i)
      else (h, i)
    | _, _ => (h, i)
  else (h, i)
termination_by h.length - i
decreasing_by
  have := lt_smallestChild less h i
  rw [length_swap]
  omega

/-- `down`: the slice, and whether the element moved. -/
def down (h : List α) (i0 : ℕ) : List α × Bool :=
  let (h, i) := downLoop less h i0
  (h, decide (i > i0))

/-- `up`. -/
def up (h : List α) (i : ℕ) : List α :=
  if i = 0 then h
  else
    match h[i]?, h[parent i]? with
    | some x, some p => if less x p then up (swap h i (parent i)) (parent i) else h
    | _, _ => h
termination_by i
decreasing_by exact parent_lt (Nat.pos_of_ne_zero ‹_›)

/-- `heapify`: `down` at every position with children, the last first. -/
def heapify (h : List α) : List α :=
  (List.range (h.length / 2)).reverse.foldl (fun h i => (down less h i).1) h

/-- `fix`. -/
def fix (h : List α) (i : ℕ) : List α :=
  let (h, moved) := down less h i
  if !moved then up less h i else h

/-! ### The helpers only permute the slice -/

theorem downLoop_perm (h : List α) (i : ℕ) : (downLoop less h i).1.Perm h := by
  induction h, i using downLoop.induct less with
  | case1 h i _ child x _ _ moves ih =>
    rw [downLoop, if_pos ‹_›]
    simp only [*, ↓reduceIte]
    exact ih.trans (perm_swap h i _)
  | case2 h i _ child x _ _ stays =>
    rw [downLoop, if_pos ‹_›]
    simp [*]
  | case3 h i _ _ =>
    rw [downLoop, if_pos ‹_›]
    split <;> simp_all
  | case4 h i leaf =>
    rw [downLoop, if_neg leaf]

theorem up_perm (h : List α) (i : ℕ) : (up less h i).Perm h := by
  induction h, i using up.induct less with
  | case1 h => rw [up, if_pos rfl]
  | case2 h i _ x p _ _ moves ih =>
    rw [up, if_neg ‹_›]
    simp only [*, ↓reduceIte]
    exact ih.trans (perm_swap h i _)
  | case3 h i _ x p _ _ stays =>
    rw [up, if_neg ‹_›]
    simp [*]
  | case4 h i _ _ =>
    rw [up, if_neg ‹_›]
    split <;> simp_all

theorem heapify_perm (h : List α) : (heapify less h).Perm h := by
  unfold heapify
  generalize (List.range (h.length / 2)).reverse = positions
  induction positions generalizing h with
  | nil => rfl
  | cons i rest ih => exact (ih _).trans (downLoop_perm less h i)

/-- Taking out the root: with the root swapped to the last position, the rest
sifted down from the root and the root are the slice again. -/
theorem downLoop_take_swap_perm {h : List α} {n : ℕ} (length : h.length = n + 1) :
    ((downLoop less ((swap h n 0).take n) 0).1 ++ h.take 1).Perm h := by
  calc (downLoop less ((swap h n 0).take n) 0).1 ++ h.take 1
      _ ~ (swap h n 0).take n ++ h.take 1 := (downLoop_perm less _ 0).append_right _
      _ = swap h n 0 := by rw [← drop_swap_last length, List.take_append_drop]
      _ ~ h := perm_swap h n 0

/-! ### The helpers restore the heap order -/

section Order

variable {less} [IsStrictWeakOrder α fun a b => less a b = true]

/-- The smallest child is a child of `i`, in the slice, and no child of `i` is
`less` than it. -/
theorem smallestChild_spec {h : List α} {i : ℕ} (hasChild : 2 * i + 1 < h.length) :
    parent (smallestChild less h i) = i ∧ smallestChild less h i < h.length ∧
      ∀ s, 0 < s → parent s = i → ∀ y child, h[s]? = some y →
        h[smallestChild less h i]? = some child → less y child = false := by
  have left : h[2 * i + 1]? = some h[2 * i + 1] := List.getElem?_eq_getElem hasChild
  unfold smallestChild
  rw [left]
  cases atRight : h[2 * i + 2]? with
  | none =>
    -- only the left child exists
    refine ⟨parent_left i, hasChild, fun s pos isChild y child atS atChild => ?_⟩
    rcases eq_child_of_parent pos isChild with rfl | rfl
    · rw [atS, Option.some.injEq] at atChild
      subst atChild
      exact lt_self _
    · rw [atRight] at atS
      cases atS
  | some right =>
    have rightIn : 2 * i + 2 < h.length := (List.getElem?_eq_some_iff.mp atRight).1
    dsimp only
    split
    · rename_i rightLess
      refine ⟨parent_right i, rightIn, fun s pos isChild y child atS atChild => ?_⟩
      rw [atRight, Option.some.injEq] at atChild
      subst atChild
      rcases eq_child_of_parent pos isChild with rfl | rfl
      · rw [left, Option.some.injEq] at atS
        subst atS
        exact not_lt_of_lt rightLess
      · rw [atRight, Option.some.injEq] at atS
        subst atS
        exact lt_self _
    · rename_i rightNotLess
      refine ⟨parent_left i, hasChild, fun s pos isChild y child atS atChild => ?_⟩
      rw [left, Option.some.injEq] at atChild
      subst atChild
      rcases eq_child_of_parent pos isChild with rfl | rfl
      · rw [left, Option.some.injEq] at atS
        subst atS
        exact lt_self _
      · rw [atRight, Option.some.injEq] at atS
        subst atS
        simpa using rightNotLess

/-- `down`'s loop, from a tree ready to sift down at `i`, leaves the subtrees from
`low` on in order. -/
theorem downLoop_heapOrderedFrom {low : ℕ} (h : List α) (i : ℕ) (ready : DownReady less low h i)
    (lowLe : low ≤ i) : HeapOrderedFrom less low (downLoop less h i).1 := by
  induction h, i using downLoop.induct less with
  | case1 h i hasChild child x atI atChild moves ih =>
    -- the element swaps with its smaller child and goes on from there
    obtain ⟨isChild, _, least⟩ := @smallestChild_spec α less _ h i hasChild
    rw [downLoop, if_pos hasChild]
    simp only [atChild, atI, moves, ↓reduceIte]
    have iLt := lt_smallestChild less h i
    exact ih (ready.swap_child lowLe (by omega) isChild atI atChild
      (fun s pos isChild' y atS => least s pos isChild' y child atS atChild) moves) (by omega)
  | case2 h i hasChild child x atI atChild stays =>
    -- no child is below the element: every child of `i` is at least the smaller one
    obtain ⟨_, _, least⟩ := @smallestChild_spec α less _ h i hasChild
    rw [downLoop, if_pos hasChild]
    simp only [atChild, atI, stays, Bool.false_eq_true, ↓reduceIte]
    refine ready.heapOrderedFrom fun s pos isChild y p atS atP => ?_
    rw [atI, Option.some.injEq] at atP
    subst atP
    exact not_lt_trans (by simpa using stays) (least s pos isChild y child atS atChild)
  | case3 h i hasChild missing =>
    obtain ⟨_, inSlice, _⟩ := @smallestChild_spec α less _ h i hasChild
    have : h[smallestChild less h i]? = some h[smallestChild less h i] :=
      List.getElem?_eq_getElem inSlice
    have : h[i]? = some h[i] := List.getElem?_eq_getElem (by omega)
    exact absurd (missing _ _ ‹_› ‹_›) (by simp)
  | case4 h i leaf =>
    rw [downLoop, if_neg leaf]
    refine ready.heapOrderedFrom fun s pos isChild y p atS _ => ?_
    have := (List.getElem?_eq_some_iff.mp atS).1
    have := eq_child_of_parent pos isChild
    omega

/-- `up`, from a tree ready to sift up at `i`, leaves it in order. -/
theorem up_heapOrdered (h : List α) (i : ℕ) (ready : UpReady less h i) :
    HeapOrdered less (up less h i) := by
  induction h, i using up.induct less with
  | case1 h =>
    rw [up, if_pos rfl]
    exact ready.heapOrdered fun pos => absurd pos (Nat.lt_irrefl 0)
  | case2 h i notRoot x p atP atI moves ih =>
    rw [up, if_neg notRoot]
    simp only [atI, atP, moves, ↓reduceIte]
    exact ih (ready.swap_parent (Nat.pos_of_ne_zero notRoot) atI atP moves)
  | case3 h i notRoot x p atP atI stays =>
    rw [up, if_neg notRoot]
    simp only [atI, atP, stays, Bool.false_eq_true, ↓reduceIte]
    refine ready.heapOrdered fun _ x' p' atI' atP' => ?_
    rw [atI, Option.some.injEq] at atI'
    rw [atP, Option.some.injEq] at atP'
    subst atI' atP'
    simpa using stays
  | case4 h i notRoot missing =>
    rw [up, if_neg notRoot]
    split
    · rename_i x p atI atP
      exact absurd (missing x p atI atP) (by simp)
    · exact ready.heapOrdered fun _ x p atI atP => absurd (missing x p atI atP) (by simp)

/-- Taking out the root of a heap leaves a heap of the rest. -/
theorem downLoop_take_swap_heapOrdered {h : List α} {n : ℕ} (length : h.length = n + 1)
    (ordered : HeapOrdered less h) : HeapOrdered less (downLoop less ((swap h n 0).take n) 0).1 :=
  downLoop_heapOrderedFrom _ 0
    (ordered.downReady_root fun _ pos _ found => getElem?_take_swap_last length pos found)
    (Nat.le_refl 0)

/-- `heapify` builds a heap: sifting down each position with children, the last
first, extends the ordered subtrees one position at a time. -/
theorem heapify_heapOrdered (h : List α) : HeapOrdered less (heapify less h) := by
  have sifted : ∀ k (h : List α), HeapOrderedFrom less k h →
      HeapOrderedFrom less 0 ((List.range k).reverse.foldl (fun h i => (down less h i).1) h) := by
    intro k
    induction k with
    | zero => exact fun h ordered => ordered
    | succ k ih =>
      intro h ordered
      rw [List.range_succ, List.reverse_append, List.reverse_singleton, List.singleton_append,
        List.foldl_cons]
      exact ih _ (downLoop_heapOrderedFrom h k ordered.downReady (Nat.le_refl k))
  exact sifted _ h (heapOrderedFrom_half h)

end Order

end Vitess.Evalengine
