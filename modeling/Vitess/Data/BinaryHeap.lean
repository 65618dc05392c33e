import Mathlib.Data.List.Perm.Basic
import Mathlib.Order.Defs.Unbundled

/-!
# Binary heaps in level order

A list read as a binary tree in level order: the children of position `i` are
`2i+1` and `2i+2`, and its parent is `(i-1)/2`. For a strict weak order `lt`,
given as a Boolean test, the list is heap-ordered when no element is `lt` its
parent; then no element is `lt` the root (`HeapOrdered.root_not_lt`), and the root
is a least element.

Sifting repairs one place at a time. `DownReady low xs i` says the subtrees from
`low` on are in order except on the edges from `i` to its children, which a
sift-down at `i` repairs; `UpReady xs i` says the tree is in order except on the
edge from `i` to its parent, which a sift-up repairs. A swap of `i` with its lesser
child, or with its parent, moves the one bad place one level on
(`DownReady.swap_child`, `UpReady.swap_parent`), and where no swap is due the tree
is in order (`DownReady.heapOrderedFrom`, `UpReady.heapOrdered`). A sift-down
starts from a heap with a new root or cut short (`HeapOrdered.downReady_root`), or
from a tree in order past `i` (`HeapOrderedFrom.downReady`), which every tree is
from its first leaf on (`heapOrderedFrom_half`). Swaps only permute the list
(`perm_swap`).
-/

namespace Vitess.BinaryHeap

variable {α : Type*}

/-! ### Positions -/

/-- The parent of position `i`. -/
def parent (i : ℕ) : ℕ :=
  (i - 1) / 2

theorem parent_lt {i : ℕ} (pos : 0 < i) : parent i < i := by
  unfold parent
  omega

@[simp] theorem parent_left (i : ℕ) : parent (2 * i + 1) = i := by
  unfold parent
  omega

@[simp] theorem parent_right (i : ℕ) : parent (2 * i + 2) = i := by
  unfold parent
  omega

/-- The positions whose parent is `i` are its two children. -/
theorem eq_child_of_parent {i j : ℕ} (pos : 0 < j) (isParent : parent j = i) :
    j = 2 * i + 1 ∨ j = 2 * i + 2 := by
  unfold parent at isParent
  omega

/-! ### Swapping two positions -/

/-- The elements at `i` and `j` exchanged (`h[i], h[j] = h[j], h[i]`). -/
def swap (xs : List α) (i j : ℕ) : List α :=
  if h : i < xs.length ∧ j < xs.length then (xs.set i xs[j]).set j xs[i] else xs

@[simp] theorem length_swap (xs : List α) (i j : ℕ) : (swap xs i j).length = xs.length := by
  unfold swap
  split <;> simp

theorem perm_swap (xs : List α) (i j : ℕ) : (swap xs i j).Perm xs := by
  unfold swap
  split
  · rename_i inRange
    have swapped := (@Array.swap_perm _ xs.toArray _ _ inRange.1 inRange.2).toList
    rwa [Array.toList_swap] at swapped
  · exact List.Perm.refl _

theorem getElem?_swap {xs : List α} {i j : ℕ} (hi : i < xs.length) (hj : j < xs.length) (k : ℕ) :
    (swap xs i j)[k]? = if k = j then xs[i]? else if k = i then xs[j]? else xs[k]? := by
  unfold swap
  rw [dif_pos ⟨hi, hj⟩, List.getElem?_set, List.getElem?_set, List.length_set]
  by_cases atJ : k = j
  · subst atJ
    simp [hi, hj]
  by_cases atI : k = i
  · subst atI
    simp [Ne.symm atJ, atJ, hi, hj]
  · simp [Ne.symm atJ, Ne.symm atI, atJ, atI]

theorem getElem?_swap_left {xs : List α} {i j : ℕ} (hi : i < xs.length) (hj : j < xs.length) :
    (swap xs i j)[i]? = xs[j]? := by
  rw [getElem?_swap hi hj]
  by_cases same : i = j
  · subst same
    simp
  · simp [same]

theorem getElem?_swap_right {xs : List α} {i j : ℕ} (hi : i < xs.length) (hj : j < xs.length) :
    (swap xs i j)[j]? = xs[i]? := by
  rw [getElem?_swap hi hj, if_pos rfl]

theorem getElem?_swap_of_ne {xs : List α} {i j k : ℕ} (hi : i < xs.length) (hj : j < xs.length)
    (notI : k ≠ i) (notJ : k ≠ j) : (swap xs i j)[k]? = xs[k]? := by
  rw [getElem?_swap hi hj, if_neg notJ, if_neg notI]

/-- A swap inside a prefix leaves the rest in place. -/
theorem swap_append {xs : List α} {i j : ℕ} (hi : i < xs.length) (hj : j < xs.length) (ys : List α) :
    swap (xs ++ ys) i j = swap xs i j ++ ys := by
  have inAppended : i < (xs ++ ys).length ∧ j < (xs ++ ys).length := by
    simp only [List.length_append]
    omega
  rw [swap, dif_pos inAppended, swap, dif_pos ⟨hi, hj⟩, List.getElem_append_left hj,
    List.getElem_append_left hi, List.set_append_left _ _ hi, List.set_append_left _ _ (by simpa using hj)]

/-- Swapping the last position with the root moves the root to the end. -/
theorem drop_swap_last {xs : List α} {n : ℕ} (length : xs.length = n + 1) :
    (swap xs n 0).drop n = xs.take 1 := by
  apply List.ext_getElem?
  intro k
  rw [List.getElem?_drop, List.getElem?_take]
  rcases Nat.eq_zero_or_pos k with rfl | pos
  · rw [Nat.add_zero, getElem?_swap_left (by omega) (by omega), if_pos Nat.one_pos]
  · rw [if_neg (by omega), List.getElem?_eq_none (by rw [length_swap]; omega)]

/-- Cut before its last position, the list swapped at the root and the last
position agrees with the list everywhere but at the root. -/
theorem getElem?_take_swap_last {xs : List α} {n k : ℕ} (length : xs.length = n + 1) (pos : 0 < k)
    {y : α} (found : ((swap xs n 0).take n)[k]? = some y) : xs[k]? = some y := by
  rw [List.getElem?_take] at found
  split at found
  · rwa [getElem?_swap_of_ne (by omega) (by omega) (by omega) (by omega)] at found
  · cases found

/-- Writing the last element at the root and cutting the last position is the
swap of the two, cut. -/
theorem take_set_zero_eq_take_swap {xs : List α} {n : ℕ} (length : xs.length = n + 1) {last : α}
    (atLast : xs[n]? = some last) : (xs.set 0 last).take n = (swap xs n 0).take n := by
  apply List.ext_getElem?
  intro k
  rw [List.getElem?_take, List.getElem?_take]
  split
  · rw [List.getElem?_set, getElem?_swap (by omega) (by omega)]
    by_cases atRoot : k = 0
    · subst atRoot
      rw [if_pos rfl, if_pos (by omega), if_pos rfl, atLast]
    · rw [if_neg (Ne.symm atRoot), if_neg atRoot, if_neg (by omega)]
  · rfl

/-! ### Heap order -/

section Order

variable (lt : α → α → Bool)

/-- No element whose parent is at `low` or later is `lt` its parent: the
subtrees rooted from `low` on are in order. -/
def HeapOrderedFrom (low : ℕ) (xs : List α) : Prop :=
  ∀ j, 0 < j → low ≤ parent j → ∀ x p, xs[j]? = some x → xs[parent j]? = some p → lt x p = false

/-- No element is `lt` its parent. -/
def HeapOrdered (xs : List α) : Prop :=
  HeapOrderedFrom lt 0 xs

/-- The subtrees from `low` on are in order but on the edges from `i` down to its
children, and no child of `i` is `lt` the parent of `i` when that parent counts. -/
structure DownReady (low : ℕ) (xs : List α) (i : ℕ) : Prop where
  ordered_except : ∀ j, 0 < j → low ≤ parent j → parent j ≠ i →
    ∀ x p, xs[j]? = some x → xs[parent j]? = some p → lt x p = false
  grand : ∀ j, 0 < j → parent j = i → 0 < i → low ≤ parent i →
    ∀ x g, xs[j]? = some x → xs[parent i]? = some g → lt x g = false

/-- In order but on the edge from `i` up to its parent, and no child of `i` is
`lt` the parent of `i`. -/
structure UpReady (xs : List α) (i : ℕ) : Prop where
  ordered_except : ∀ j, 0 < j → j ≠ i →
    ∀ x p, xs[j]? = some x → xs[parent j]? = some p → lt x p = false
  grand : ∀ j, 0 < j → parent j = i → 0 < i →
    ∀ x g, xs[j]? = some x → xs[parent i]? = some g → lt x g = false

variable {lt}

/-- The order facts a heap needs of `lt`: it is irreflexive and asymmetric, and
"not below" is transitive. All three hold of every strict weak order. -/
theorem lt_self [IsStrictWeakOrder α fun a b => lt a b = true] (a : α) : lt a a = false :=
  Bool.eq_false_iff.mpr (@Std.Irrefl.irrefl α (fun a b => lt a b = true) _ a)

theorem not_lt_of_lt [IsStrictWeakOrder α fun a b => lt a b = true] {a b : α}
    (below : lt a b = true) : lt b a = false := by
  rw [Bool.eq_false_iff]
  intro above
  have loop := @IsTrans.trans α (fun a b => lt a b = true) _ a b a below above
  rw [@lt_self α lt _ a] at loop
  cases loop

theorem not_lt_trans [IsStrictWeakOrder α fun a b => lt a b = true] {a b c : α}
    (ab : lt b a = false) (bc : lt c b = false) : lt c a = false := by
  rw [Bool.eq_false_iff] at *
  intro ca
  cases hab : lt a b
  · cases hbc : lt b c
    · -- `b` is incomparable with `a` and with `c`, so `a` and `c` are too
      exact (@IsStrictWeakOrder.incomp_trans α (fun a b => lt a b = true) _ a b c
        ⟨by simp [hab], ab⟩ ⟨by simp [hbc], bc⟩).2 ca
    · exact ab (@IsTrans.trans α (fun a b => lt a b = true) _ b c a hbc ca)
  · exact bc (@IsTrans.trans α (fun a b => lt a b = true) _ c a b ca hab)

variable [IsStrictWeakOrder α fun a b => lt a b = true] {xs : List α}

/-- What is below something not below a third is not below the third either. -/
theorem not_lt_of_lt_of_not_lt {a b c : α} (ab : lt a b = true) (cb : lt c b = false) :
    lt c a = false := by
  rw [Bool.eq_false_iff] at *
  exact fun ca => cb (@IsTrans.trans α (fun a b => lt a b = true) _ c a b ca ab)

/-- No element of a heap is `lt` its root. -/
theorem HeapOrdered.root_not_lt (ordered : HeapOrdered lt xs) {root : α} (atRoot : xs[0]? = some root) :
    ∀ (i : ℕ) (x : α), xs[i]? = some x → lt x root = false := by
  intro i
  induction i using Nat.strongRecOn with
  | ind i ih =>
    intro x found
    rcases Nat.eq_zero_or_pos i with rfl | pos
    · rw [atRoot, Option.some.injEq] at found
      subst found
      exact lt_self _
    · -- the parent is not below the root, and `x` is not below its parent
      obtain ⟨p, atParent⟩ : ∃ p : α, xs[parent i]? = some p := by
        have : parent i < xs.length := Nat.lt_trans (parent_lt pos) (List.getElem?_eq_some_iff.mp found).1
        exact ⟨_, List.getElem?_eq_getElem this⟩
      exact not_lt_trans (ih (parent i) (parent_lt pos) p atParent)
        (ordered i pos (Nat.zero_le _) x p found atParent)

/-! ### Where a sift starts -/

omit [IsStrictWeakOrder α fun a b => lt a b = true] in
/-- A list that agrees with a heap off the root is ready to sift down at the
root: a new root, a heap cut short, or both. -/
theorem HeapOrdered.downReady_root {ys : List α} (ordered : HeapOrdered lt xs)
    (agree : ∀ k, 0 < k → ∀ y, ys[k]? = some y → xs[k]? = some y) : DownReady lt 0 ys 0 := by
  constructor
  · intro j pos _ notRoot x p atJ atParent
    exact ordered j pos (Nat.zero_le _) x p (agree j pos x atJ)
      (agree (parent j) (Nat.pos_of_ne_zero notRoot) p atParent)
  · intro _ _ _ rootPos
    cases rootPos

omit [IsStrictWeakOrder α fun a b => lt a b = true] in
/-- An element appended to a heap is ready to sift up from its place. -/
theorem HeapOrdered.upReady_append (ordered : HeapOrdered lt xs) (x : α) :
    UpReady lt (xs ++ [x]) xs.length := by
  have earlier : ∀ k, k < xs.length → (xs ++ [x])[k]? = xs[k]? := fun k inRange =>
    List.getElem?_append_left inRange
  constructor
  · intro j pos notNew y p atJ atParent
    have jLt : j < xs.length := by
      have := (List.getElem?_eq_some_iff.mp atJ).1
      simp at this
      omega
    rw [earlier j jLt] at atJ
    rw [earlier (parent j) (Nat.lt_trans (parent_lt pos) jLt)] at atParent
    exact ordered j pos (Nat.zero_le _) y p atJ atParent
  · -- the new element has no children
    intro j pos fromNew _ y g atJ _
    have := (List.getElem?_eq_some_iff.mp atJ).1
    have := eq_child_of_parent pos fromNew
    simp at *
    omega

omit [IsStrictWeakOrder α fun a b => lt a b = true] in
/-- Every tree is in order from the first position that has no children on. -/
theorem heapOrderedFrom_half (xs : List α) : HeapOrderedFrom lt (xs.length / 2) xs := by
  intro j pos late x p atJ _
  have := (List.getElem?_eq_some_iff.mp atJ).1
  unfold parent at late
  omega

omit [IsStrictWeakOrder α fun a b => lt a b = true] in
/-- In order past `i`, a tree is ready to sift down at `i` for the subtrees from
`i` on. -/
theorem HeapOrderedFrom.downReady {i : ℕ} (ordered : HeapOrderedFrom lt (i + 1) xs) :
    DownReady lt i xs i := by
  constructor
  · intro j pos late notI x p atJ atParent
    exact ordered j pos (by omega) x p atJ atParent
  · intro _ _ _ pos late
    have := parent_lt pos
    omega

/-! ### Sifting down -/

omit [IsStrictWeakOrder α fun a b => lt a b = true] in
/-- Where no child of `i` is below it, a tree ready to sift down at `i` is in
order from `low` on. -/
theorem DownReady.heapOrderedFrom {low i : ℕ} (ready : DownReady lt low xs i)
    (settled : ∀ j, 0 < j → parent j = i → ∀ x p, xs[j]? = some x → xs[i]? = some p → lt x p = false) :
    HeapOrderedFrom lt low xs := by
  intro j pos inRange x p atJ atParent
  by_cases fromI : parent j = i
  · rw [fromI] at atParent
    exact settled j pos fromI x p atJ atParent
  · exact ready.ordered_except j pos inRange fromI x p atJ atParent

/-- Swapping `i` with its least child `c`, which is below it, leaves a tree ready
to sift down at `c`. -/
theorem DownReady.swap_child {low i c : ℕ} {xi xc : α} (ready : DownReady lt low xs i)
    (lowLe : low ≤ i) (pos : 0 < c) (isChild : parent c = i) (atI : xs[i]? = some xi)
    (atC : xs[c]? = some xc)
    (least : ∀ s, 0 < s → parent s = i → ∀ y, xs[s]? = some y → lt y xc = false)
    (below : lt xc xi = true) : DownReady lt low (swap xs i c) c := by
  have iLt : i < c := isChild ▸ parent_lt pos
  have hc : c < xs.length := (List.getElem?_eq_some_iff.mp atC).1
  have hi : i < xs.length := (List.getElem?_eq_some_iff.mp atI).1
  have swappedI : (swap xs i c)[i]? = some xc := by rw [getElem?_swap_left hi hc, atC]
  have swappedC : (swap xs i c)[c]? = some xi := by rw [getElem?_swap_right hi hc, atI]
  constructor
  · intro j jPos inRange fromC x p atJ atParent
    by_cases isC : j = c
    · -- the edge that was swapped
      subst isC
      rw [isChild, swappedI, Option.some.injEq] at atParent
      rw [swappedC, Option.some.injEq] at atJ
      subst atParent atJ
      exact not_lt_of_lt below
    by_cases isI : j = i
    · -- the edge above `i`: `xc` moved up against the grandparent
      subst isI
      have gNe : parent j ≠ j := Nat.ne_of_lt (parent_lt jPos)
      rw [swappedI, Option.some.injEq] at atJ
      rw [getElem?_swap_of_ne hi hc gNe (by omega)] at atParent
      subst atJ
      exact ready.grand c pos isChild jPos inRange _ p atC atParent
    by_cases fromI : parent j = i
    · -- a sibling of `c` now under `xc`
      rw [fromI, swappedI, Option.some.injEq] at atParent
      rw [getElem?_swap_of_ne hi hc isI isC] at atJ
      subst atParent
      exact least j jPos fromI x atJ
    · rw [getElem?_swap_of_ne hi hc isI isC] at atJ
      rw [getElem?_swap_of_ne hi hc fromI fromC] at atParent
      exact ready.ordered_except j jPos inRange fromI x p atJ atParent
  · -- the children of `c` against `xc`, now at `i`
    intro j jPos fromC _ _ x g atJ atGrand
    have cLt : c < j := fromC ▸ parent_lt jPos
    rw [isChild, swappedI, Option.some.injEq] at atGrand
    rw [getElem?_swap_of_ne hi hc (by omega) (by omega)] at atJ
    subst atGrand
    exact ready.ordered_except j jPos (by omega) (by omega) x _ atJ (fromC ▸ atC)

/-! ### Sifting up -/

omit [IsStrictWeakOrder α fun a b => lt a b = true] in
/-- Where `i` is the root or not below its parent, a tree ready to sift up at
`i` is in order. -/
theorem UpReady.heapOrdered {i : ℕ} (ready : UpReady lt xs i)
    (settled : 0 < i → ∀ x p, xs[i]? = some x → xs[parent i]? = some p → lt x p = false) :
    HeapOrdered lt xs := by
  intro j pos _ x p atJ atParent
  by_cases isI : j = i
  · subst isI
    exact settled pos x p atJ atParent
  · exact ready.ordered_except j pos isI x p atJ atParent

/-- Swapping `i` with its parent, which it is below, leaves a tree ready to sift
up at the parent. -/
theorem UpReady.swap_parent {i : ℕ} {xi xp : α} (ready : UpReady lt xs i) (pos : 0 < i)
    (atI : xs[i]? = some xi) (atP : xs[parent i]? = some xp) (below : lt xi xp = true) :
    UpReady lt (swap xs i (parent i)) (parent i) := by
  have pLt : parent i < i := parent_lt pos
  have hi : i < xs.length := (List.getElem?_eq_some_iff.mp atI).1
  have hp : parent i < xs.length := (List.getElem?_eq_some_iff.mp atP).1
  have swappedI : (swap xs i (parent i))[i]? = some xp := by rw [getElem?_swap_left hi hp, atP]
  have swappedP : (swap xs i (parent i))[parent i]? = some xi := by
    rw [getElem?_swap_right hi hp, atI]
  constructor
  · intro j jPos notP x p atJ atParent
    by_cases isI : j = i
    · -- the edge that was swapped
      subst isI
      rw [swappedI, Option.some.injEq] at atJ
      rw [swappedP, Option.some.injEq] at atParent
      subst atJ atParent
      exact not_lt_of_lt below
    by_cases fromI : parent j = i
    · -- a child of `i` now under `xp`
      rw [fromI, swappedI, Option.some.injEq] at atParent
      have iLt : i < j := fromI ▸ parent_lt jPos
      rw [getElem?_swap_of_ne hi hp isI (by omega)] at atJ
      subst atParent
      exact ready.grand j jPos fromI pos x _ atJ atP
    by_cases fromP : parent j = parent i
    · -- the sibling of `i` now under `xi`, which is below `xp`
      rw [fromP, swappedP, Option.some.injEq] at atParent
      rw [getElem?_swap_of_ne hi hp isI notP] at atJ
      subst atParent
      exact not_lt_of_lt_of_not_lt below (ready.ordered_except j jPos isI x xp atJ (fromP ▸ atP))
    · rw [getElem?_swap_of_ne hi hp isI notP] at atJ
      rw [getElem?_swap_of_ne hi hp fromI fromP] at atParent
      exact ready.ordered_except j jPos isI x p atJ atParent
  · -- the children of the parent against the grandparent
    intro j jPos fromP pPos x g atJ atGrand
    have gLt : parent (parent i) < parent i := parent_lt pPos
    rw [getElem?_swap_of_ne hi hp (by omega) (by omega)] at atGrand
    have xpAbove : lt xp g = false :=
      ready.ordered_except (parent i) pPos (by omega) xp g atP atGrand
    by_cases isI : j = i
    · subst isI
      rw [swappedI, Option.some.injEq] at atJ
      subst atJ
      exact xpAbove
    · have pLtJ : parent i < j := fromP ▸ parent_lt jPos
      rw [getElem?_swap_of_ne hi hp isI (by omega)] at atJ
      exact not_lt_trans xpAbove (ready.ordered_except j jPos isI x xp atJ (fromP ▸ atP))

end Order

end Vitess.BinaryHeap
