import Vitess.Evalengine.Heap
import Vitess.Go.Slice

/-!
# The top-k sorter

`Sorter` of `go/vt/vtgate/evalengine/api_compare.go`, which `MemorySort` uses to
keep the first `Limit` rows of a stream in `ORDER BY` order. `Push` appends
while fewer than `Limit` rows are held; on the first push past that it turns the
rows into a heap under `Comparison.More`, whose root is the greatest row held,
and from then on a new row replaces the root unless the root is smaller.
`Sorted` sorts the rows with `Comparison.Sort` when no heap was built, and
otherwise by taking the root to the end while the heap shrinks.

The rows are compared by `Comparison.Compare`, a parameter here: `Less` and
`More` are its result below and above zero, as the column loop of each returns the
first nonzero column comparison. `Comparison.Sort` (`slices.SortFunc`, not
stable) is a parameter too, taken to return a sorted permutation.

With `Limit = 0`, which `MemorySort` passes for `LIMIT 0`, the first `Push`
builds a heap of no rows and reads `s.rows[0]`: an index out of range
(`sorter_limit_zero_panics`). With `Limit ≥ 1`, every push succeeds and `Sorted`
returns `min(Limit, n)` rows in order, none above a row it dropped
(`sorted_keeps_least`).
-/

namespace Vitess.Evalengine

open Vitess.Go Vitess.BinaryHeap
open scoped List

variable {α : Type*} (compare : α → α → ℤ)

/-- `Comparison.Less`. -/
def lessRow (a b : α) : Bool :=
  decide (compare a b < 0)

/-- `Comparison.More`. -/
def moreRow (a b : α) : Bool :=
  decide (0 < compare a b)

/-- `evalengine.Sorter`, with the comparison as a parameter. -/
structure Sorter (α : Type*) where
  Limit : ℕ
  rows : List α
  heap : Bool

/-- The part of `Push` once the rows are a heap: the row replaces the root
unless the root is smaller. -/
def Sorter.pushHeap (s : Sorter α) (row : α) : Except RuntimeError (Sorter α) := do
  let root ← index s.rows 0
  if compare root row < 0 then return s
  return { s with rows := fix (moreRow compare) (s.rows.set 0 row) 0 }

/-- `Sorter.Push`. -/
def Sorter.push (s : Sorter α) (row : α) : Except RuntimeError (Sorter α) :=
  if s.rows.length < s.Limit then .ok { s with rows := s.rows ++ [row] }
  else if !s.heap then
    Sorter.pushHeap compare { s with rows := heapify (moreRow compare) s.rows, heap := true } row
  else Sorter.pushHeap compare s row

/-- The loop of `Sorted` on a heap in `h[:heapEnd]`: the root goes to the end and
`down` repairs the heap that is left. -/
def sortHeap (h : List α) : ℕ → List α
  | heapEnd + 2 =>
    let h := swap h (heapEnd + 1) 0
    sortHeap ((down (moreRow compare) (h.take (heapEnd + 1)) 0).1 ++ h.drop (heapEnd + 1))
      (heapEnd + 1)
  | _ => h

/-- `Sorter.Sorted`, with `Comparison.Sort` as `sort`. -/
def Sorter.sorted (sort : List α → List α) (s : Sorter α) : List α :=
  if !s.heap then sort s.rows else sortHeap compare s.rows s.rows.length

/-- The rows pushed one by one. -/
def Sorter.pushAll (s : Sorter α) (rows : List α) : Except RuntimeError (Sorter α) :=
  rows.foldlM (Sorter.push compare) s

/-! ### `LIMIT 0` -/

/-- A sorter with `Limit = 0` panics on the first row pushed: it builds a heap of
no rows and reads its root. -/
theorem sorter_limit_zero_panics (row : α) (rest : List α) :
    Sorter.pushAll compare ⟨0, [], false⟩ (row :: rest) = .error .indexOutOfRange := by
  rw [Sorter.pushAll, List.foldlM_cons]
  have first : Sorter.push compare ⟨0, [], false⟩ row = .error .indexOutOfRange := by
    simp [Sorter.push, Sorter.pushHeap, heapify, index, bind, Except.bind]
  rw [first]
  rfl

/-! ### `Compare` as a total preorder -/

/-- `Compare` is a total preorder of the rows: swapping them flips the sign of the
result, and "at most" is transitive. -/
structure TotalPreorder : Prop where
  neg_iff_pos : ∀ a b, compare a b < 0 ↔ 0 < compare b a
  le_trans : ∀ a b c, compare a b ≤ 0 → compare b c ≤ 0 → compare a c ≤ 0

variable {compare}

@[simp] theorem moreRow_eq_false {a b : α} : moreRow compare a b = false ↔ compare a b ≤ 0 := by
  simp [moreRow]

@[simp] theorem moreRow_eq_true {a b : α} : moreRow compare a b = true ↔ 0 < compare a b := by
  simp [moreRow]

@[simp] theorem lessRow_eq_true {a b : α} : lessRow compare a b = true ↔ compare a b < 0 := by
  simp [lessRow]

@[simp] theorem lessRow_eq_false {a b : α} : lessRow compare a b = false ↔ 0 ≤ compare a b := by
  simp [lessRow]

namespace TotalPreorder

variable (preorder : TotalPreorder compare)
include preorder

theorem le_of_not_lt {a b : α} (notBelow : ¬ compare a b < 0) : compare b a ≤ 0 := by
  rw [preorder.neg_iff_pos] at notBelow
  omega

theorem self_le (a : α) : compare a a ≤ 0 := by
  have := preorder.neg_iff_pos a a
  omega

/-- Under a total preorder, `More` is a strict weak order: its incomparable rows
are those `Compare` finds equal. -/
theorem isStrictWeakOrder_more : IsStrictWeakOrder α fun a b => moreRow compare a b = true where
  irrefl a := by simpa using preorder.self_le a
  trans a b c ab bc := by
    simp only [moreRow_eq_true] at *
    by_contra notAbove
    have cb : compare c b ≤ 0 := Int.le_of_lt ((preorder.neg_iff_pos c b).mpr bc)
    have := preorder.le_trans a c b (by omega) cb
    omega
  incomp_trans a b c ab bc := by
    simp only [moreRow_eq_true, not_lt] at *
    exact ⟨preorder.le_trans a b c ab.1 bc.1, preorder.le_trans c b a bc.2 ab.2⟩

/-- Under a total preorder, `Less` is a strict weak order too. -/
theorem isStrictWeakOrder_less : IsStrictWeakOrder α fun a b => lessRow compare a b = true where
  irrefl a := by
    have := preorder.neg_iff_pos a a
    simp only [lessRow_eq_true]
    omega
  trans a b c ab bc := by
    simp only [lessRow_eq_true] at *
    by_contra notBelow
    have ba : compare b a ≤ 0 := preorder.le_trans b c a (Int.le_of_lt bc) (preorder.le_of_not_lt notBelow)
    have := (preorder.neg_iff_pos a b).mp ab
    omega
  incomp_trans a b c ab bc := by
    simp only [lessRow_eq_true] at *
    have ca := preorder.le_trans c b a (preorder.le_of_not_lt bc.1) (preorder.le_of_not_lt ab.1)
    have ac := preorder.le_trans a b c (preorder.le_of_not_lt ab.2) (preorder.le_of_not_lt bc.2)
    rw [preorder.neg_iff_pos, preorder.neg_iff_pos]
    omega

end TotalPreorder

/-! ### Pushes keep the least rows -/

variable (compare)

/-- What the pushes so far leave in a sorter: while appending, every row pushed,
no more than `Limit`; once a heap, `Limit` rows under `More`, and the rows it
dropped, none below a row it keeps. -/
inductive Sorter.Holds : List α → Sorter α → Prop
  | appending {limit : ℕ} {pushed : List α} (within : pushed.length ≤ limit) :
    Sorter.Holds pushed ⟨limit, pushed, false⟩
  | heaped {limit : ℕ} {pushed rows dropped : List α} (ordered : HeapOrdered (moreRow compare) rows)
    (full : rows.length = limit) (split : pushed.Perm (rows ++ dropped))
    (above : ∀ d ∈ dropped, ∀ r ∈ rows, compare r d ≤ 0) :
    Sorter.Holds pushed ⟨limit, rows, true⟩

variable {compare}

theorem fix_zero (less : α → α → Bool) (h : List α) : fix less h 0 = (downLoop less h 0).1 := by
  unfold fix down
  dsimp only
  split
  · rw [up, if_pos rfl]
  · rfl

/-- Every row of a heap under `More` is at most its root. -/
theorem TotalPreorder.le_root (preorder : TotalPreorder compare) {heap : List α} {root : α}
    (ordered : HeapOrdered (moreRow compare) heap) (atRoot : heap[0]? = some root) :
    ∀ r ∈ heap, compare r root ≤ 0 := by
  have := preorder.isStrictWeakOrder_more
  intro r member
  obtain ⟨i, found⟩ := List.getElem?_of_mem member
  exact moreRow_eq_false.mp (ordered.root_not_lt atRoot i r found)

/-- `Push` on a heap: whichever of the row and the root it drops, the heap stays
a heap of the same size, and no row it keeps is above a row it dropped. -/
theorem pushHeap_spec (preorder : TotalPreorder compare) {limit : ℕ} {pushed rows dropped : List α}
    (ordered : HeapOrdered (moreRow compare) rows) (nonempty : rows ≠ [])
    (split : pushed.Perm (rows ++ dropped)) (above : ∀ d ∈ dropped, ∀ r ∈ rows, compare r d ≤ 0)
    (row : α) :
    ∃ rows' dropped', Sorter.pushHeap compare ⟨limit, rows, true⟩ row = .ok ⟨limit, rows', true⟩ ∧
      HeapOrdered (moreRow compare) rows' ∧ rows'.length = rows.length ∧
      (pushed ++ [row]).Perm (rows' ++ dropped') ∧ ∀ d ∈ dropped', ∀ r ∈ rows', compare r d ≤ 0 := by
  have := preorder.isStrictWeakOrder_more
  obtain ⟨root, tail, rfl⟩ := List.exists_cons_of_ne_nil nonempty
  have rootMax := preorder.le_root ordered rfl
  by_cases rootBelow : compare root row < 0
  · -- the row is above every row held: it is dropped
    refine ⟨root :: tail, dropped ++ [row], ?_, ordered, rfl, ?_, fun d member r held => ?_⟩
    · simp [Sorter.pushHeap, index, bind, Except.bind, rootBelow]
      rfl
    · rw [← List.append_assoc]
      exact split.append_right [row]
    · rcases List.mem_append.mp member with old | new
      · exact above d old r held
      · rw [List.mem_singleton.mp new]
        exact preorder.le_trans r root row (rootMax r held) (Int.le_of_lt rootBelow)
  · -- the root is dropped, the row takes its place and sifts down
    have rowLe : compare row root ≤ 0 := preorder.le_of_not_lt rootBelow
    have ready : DownReady (moreRow compare) 0 (row :: tail) 0 :=
      ordered.downReady_root fun k pos y found => by
        obtain ⟨k, rfl⟩ := Nat.exists_eq_succ_of_ne_zero (Nat.ne_of_gt pos)
        simpa using found
    have sifted := downLoop_perm (moreRow compare) (row :: tail) 0
    refine ⟨(downLoop (moreRow compare) (row :: tail) 0).1, dropped ++ [root], ?_,
      downLoop_heapOrderedFrom _ 0 ready (Nat.le_refl 0), by simpa using sifted.length_eq, ?_, ?_⟩
    · simp [Sorter.pushHeap, index, bind, Except.bind, rootBelow, fix_zero]
      rfl
    · calc pushed ++ [row]
          _ ~ (root :: tail ++ dropped) ++ [row] := split.append_right [row]
          _ ~ row :: (root :: tail ++ dropped) := List.perm_append_singleton _ _
          _ ~ row :: (tail ++ dropped ++ [root]) :=
            (List.perm_cons row).mpr (by simpa using (List.perm_append_singleton root (tail ++ dropped)).symm)
          _ ~ (downLoop (moreRow compare) (row :: tail) 0).1 ++ (dropped ++ [root]) := by
            rw [List.append_assoc, ← List.cons_append]
            exact (sifted.append_right _).symm
    · intro d member r held
      have held' : r ∈ row :: tail := sifted.subset held
      rcases List.mem_append.mp member with old | new
      · rcases List.mem_cons.mp held' with rfl | inTail
        · exact preorder.le_trans r root d rowLe (above d old root List.mem_cons_self)
        · exact above d old r (List.mem_cons_of_mem root inTail)
      · rw [List.mem_singleton.mp new]
        rcases List.mem_cons.mp held' with rfl | inTail
        · exact rowLe
        · exact rootMax r (List.mem_cons_of_mem root inTail)

/-- The step lemma of the pushes: with `Limit ≥ 1`, a push never panics and keeps
the invariant. -/
theorem push_spec (preorder : TotalPreorder compare) {pushed : List α} {s : Sorter α}
    (holds : Sorter.Holds compare pushed s) (positive : 0 < s.Limit) (row : α) :
    ∃ s', Sorter.push compare s row = .ok s' ∧ s'.Limit = s.Limit ∧
      Sorter.Holds compare (pushed ++ [row]) s' := by
  cases holds with
  | appending within =>
    rename_i limit
    have positive : 0 < limit := positive
    by_cases room : pushed.length < limit
    · refine ⟨⟨limit, pushed ++ [row], false⟩, by simp [Sorter.push, room], rfl, .appending ?_⟩
      rw [List.length_append, List.length_singleton]
      exact room
    · -- the first push past `Limit` builds the heap
      have full : pushed.length = limit := by omega
      have built := heapify_perm (moreRow compare) pushed
      have := preorder.isStrictWeakOrder_more
      have nonempty : heapify (moreRow compare) pushed ≠ [] := by
        intro empty
        have := built.length_eq
        rw [empty, List.length_nil] at this
        omega
      have split : pushed ~ heapify (moreRow compare) pushed ++ [] := by
        rw [List.append_nil]
        exact built.symm
      obtain ⟨rows', dropped', pushes, ordered, length, split, above⟩ :=
        pushHeap_spec preorder (heapify_heapOrdered pushed) nonempty split (by simp) row
      refine ⟨⟨limit, rows', true⟩, ?_, rfl,
        .heaped ordered (by rw [length, built.length_eq, full]) split above⟩
      simpa [Sorter.push, room] using pushes
  | heaped ordered full split above =>
    rename_i limit rows dropped
    have nonempty : rows ≠ [] := by
      rintro rfl
      rw [List.length_nil] at full
      exact absurd positive (by simp [← full])
    obtain ⟨rows', dropped', pushes, ordered', length, split', above'⟩ :=
      pushHeap_spec preorder ordered nonempty split above row
    refine ⟨⟨limit, rows', true⟩, ?_, rfl, .heaped ordered' (by rw [length, full]) split' above'⟩
    simpa [Sorter.push, full] using pushes

/-- The run lemma of the pushes. -/
theorem pushAll_spec (preorder : TotalPreorder compare) (rows : List α) :
    ∀ {pushed : List α} {s : Sorter α}, Sorter.Holds compare pushed s → 0 < s.Limit →
      ∃ s', Sorter.pushAll compare s rows = .ok s' ∧ s'.Limit = s.Limit ∧
        Sorter.Holds compare (pushed ++ rows) s' := by
  induction rows with
  | nil => exact fun holds _ => ⟨_, rfl, rfl, by simpa using holds⟩
  | cons row rest ih =>
    intro pushed s holds positive
    obtain ⟨s', pushed', limit', holds'⟩ := push_spec preorder holds positive row
    obtain ⟨s'', run, limit'', holds''⟩ := ih holds' (limit' ▸ positive)
    refine ⟨s'', ?_, limit''.trans limit', by simpa using holds''⟩
    rw [Sorter.pushAll, List.foldlM_cons, pushed']
    exact run

/-! ### `Sorted` -/

/-- The heap loop of `Sorted`: a heap in front of rows already in order, none of
them below a row of the heap, comes out in order. Each round puts a greatest row
of the heap in front of the ordered rows, and `down` makes the rest a heap again. -/
theorem sortHeap_spec (preorder : TotalPreorder compare) (n : ℕ) :
    ∀ {heap sorted : List α}, heap.length = n → HeapOrdered (moreRow compare) heap →
      sorted.Pairwise (fun a b => compare a b ≤ 0) → (∀ x ∈ heap, ∀ y ∈ sorted, compare x y ≤ 0) →
      sortHeap compare (heap ++ sorted) n ~ heap ++ sorted ∧
        (sortHeap compare (heap ++ sorted) n).Pairwise (fun a b => compare a b ≤ 0) := by
  have := preorder.isStrictWeakOrder_more
  induction n with
  | zero =>
    intro heap sorted length _ ascending _
    rw [List.length_eq_zero_iff.mp length, List.nil_append]
    exact ⟨List.Perm.refl _, ascending⟩
  | succ k ih =>
    intro heap sorted length ordered ascending below
    obtain ⟨root, tail, rfl⟩ := List.exists_cons_of_length_eq_add_one length
    cases k with
    | zero =>
      -- one row left, at most every ordered one
      rw [List.length_cons, Nat.add_right_cancel_iff, List.length_eq_zero_iff] at length
      subst length
      exact ⟨List.Perm.refl _, List.pairwise_cons.mpr ⟨below root List.mem_cons_self, ascending⟩⟩
    | succ k =>
      have rootIn : 0 < (root :: tail).length := List.length_pos_of_ne_nil (List.cons_ne_nil _ _)
      set swapped := swap (root :: tail) (k + 1) 0
      set rest := swapped.take (k + 1)
      -- the root goes behind the rest, which agrees with the heap off the root
      have split : swapped = rest ++ [root] := by
        rw [← List.take_append_drop (k + 1) swapped, drop_swap_last length]
        rfl
      have ready : DownReady (moreRow compare) 0 rest 0 :=
        ordered.downReady_root fun _ pos _ found => getElem?_take_swap_last length pos found
      have sifted := downLoop_perm (moreRow compare) rest 0
      have restLength : rest.length = k + 1 := by
        rw [List.length_take, length_swap, length]
        omega
      have round : sortHeap compare (root :: tail ++ sorted) (k + 2) =
          sortHeap compare ((downLoop (moreRow compare) rest 0).1 ++ ([root] ++ sorted)) (k + 1) := by
        have inSwapped : k + 1 ≤ (swap (root :: tail) (k + 1) 0).length := by
          rw [length_swap, length]
          omega
        rw [sortHeap, swap_append (by omega) rootIn, List.take_append_of_le_length inSwapped,
          List.drop_append_of_le_length inSwapped, drop_swap_last length]
        rfl
      have fromHeap : ∀ x ∈ (downLoop (moreRow compare) rest 0).1, x ∈ root :: tail := fun x member =>
        (perm_swap _ _ _).subset (List.mem_of_mem_take (sifted.subset member))
      obtain ⟨perm, sorts⟩ := ih (by rw [sifted.length_eq, restLength])
        (downLoop_heapOrderedFrom rest 0 ready (Nat.le_refl 0))
        (List.pairwise_cons.mpr ⟨below root List.mem_cons_self, ascending⟩)
        (fun x member y ordered' => by
          rcases List.mem_cons.mp ordered' with rfl | later
          · exact preorder.le_root ordered rfl x (fromHeap x member)
          · exact below x (fromHeap x member) y later)
      refine ⟨?_, by rwa [round]⟩
      calc sortHeap compare (root :: tail ++ sorted) (k + 2)
          _ ~ (downLoop (moreRow compare) rest 0).1 ++ ([root] ++ sorted) := by rwa [round]
          _ ~ rest ++ [root] ++ sorted := by
            rw [List.append_assoc]
            exact sifted.append_right _
          _ ~ root :: tail ++ sorted := by
            rw [← split]
            exact (perm_swap _ _ _).append_right sorted

/-- With `Limit ≥ 1`, `Sorted` after any pushes returns `min(Limit, n)` of the
rows in order, and none of the rows it dropped is below one it returns. -/
theorem sorted_keeps_least (preorder : TotalPreorder compare) (sort : List α → List α)
    (sorts : ∀ rows, sort rows ~ rows ∧ (sort rows).Pairwise (fun a b => compare a b ≤ 0))
    {limit : ℕ} (positive : 0 < limit) (rows : List α) :
    ∃ s kept dropped, Sorter.pushAll compare ⟨limit, [], false⟩ rows = .ok s ∧
      Sorter.sorted compare sort s = kept ∧ rows ~ kept ++ dropped ∧
      kept.length = min limit rows.length ∧ kept.Pairwise (fun a b => compare a b ≤ 0) ∧
      ∀ d ∈ dropped, ∀ k ∈ kept, compare k d ≤ 0 := by
  have empty : Sorter.Holds compare [] ⟨limit, [], false⟩ := .appending (Nat.zero_le limit)
  obtain ⟨s, pushed, limit', holds⟩ := pushAll_spec preorder rows empty positive
  rw [List.nil_append] at holds
  cases holds with
  | appending within =>
    dsimp only at limit'
    subst limit'
    -- never full: every row is kept, and `Comparison.Sort` orders them
    obtain ⟨perm, ascending⟩ := sorts rows
    refine ⟨_, sort rows, [], pushed, by simp [Sorter.sorted], ?_, ?_, ascending, nofun⟩
    · rw [List.append_nil]
      exact perm.symm
    · rw [perm.length_eq]
      exact (Nat.min_eq_right within).symm
  | heaped ordered full split above =>
    rename_i heap dropped
    dsimp only at limit'
    subst limit'
    obtain ⟨perm, ascending⟩ :=
      sortHeap_spec preorder heap.length rfl ordered List.Pairwise.nil nofun
    rw [List.append_nil] at perm ascending
    refine ⟨_, sortHeap compare heap heap.length, dropped, pushed, rfl, ?_, ?_, ascending,
      fun d member k kept => ?_⟩
    · exact split.trans (perm.symm.append_right dropped)
    · have := split.length_eq
      rw [List.length_append] at this
      rw [perm.length_eq, full]
      omega
    · exact above d member k (perm.subset kept)

end Vitess.Evalengine
