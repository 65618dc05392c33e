import Mathlib.Data.List.AList
import Vitess.Data.EqvClosure
import Vitess.Data.KeyedFold

/-!
# `go/mathutil`: equivalence relations over named elements

`EquivalenceRelation` keeps a partition of the elements it was given as two
maps: `elementClassMap` gives each element its class id and
`classElementsMap` lists the elements of each class. `Add` puts a new element
in a class of its own, numbered by `classCounter`; `Relate` moves the
elements of the higher-numbered of two classes into the lower one.

`Meaning` is what a sequence of calls stands for: the elements in the order
they were first added, and the pairs that successful `Relate` calls declared
related. `Inv` says how the maps hold it: the lists partition the added
elements and agree with the element map, the ids name the classes of the
equivalence closure of the related pairs (`Vitess.EqvClosure.Represents`), and
each id is the least add-order index in its class. Every call keeps `Inv`
(`Inv.call`), so every run from `newEquivalenceRelation` does (`Inv.run`).
-/

namespace Vitess.Mathutil

open Relation Vitess.EqvClosure Vitess.KeyedFold

/-- The error for an element that was never added. -/
structure UnknownElementError (α : Type*) where
  element : α
deriving DecidableEq, Repr

/-- Go's `EquivalenceRelation`, over elements of any type with equality (Go's are strings). -/
structure EquivalenceRelation (α : Type*) [DecidableEq α] where
  elementClassMap : AList fun _ : α => ℕ
  classElementsMap : AList fun _ : ℕ => List α
  classCounter : ℕ

/-- The calls that change an `EquivalenceRelation`. -/
inductive Call (α : Type*)
  | add (element : α)
  | addAll (elements : List α)
  | relate (element1 element2 : α)

variable {α : Type*} [DecidableEq α]

def newEquivalenceRelation : EquivalenceRelation α := ⟨∅, ∅, 0⟩

namespace EquivalenceRelation

/-- An element seen before is skipped; a new one gets a class of its own. -/
def add (r : EquivalenceRelation α) (element : α) : EquivalenceRelation α :=
  match r.elementClassMap.lookup element with
  | some _ => r
  | none =>
    { elementClassMap := r.elementClassMap.insert element r.classCounter
      classElementsMap := r.classElementsMap.insert r.classCounter [element]
      classCounter := r.classCounter + 1 }

def addAll (r : EquivalenceRelation α) (elements : List α) : EquivalenceRelation α :=
  elements.foldl add r

def elementClass (r : EquivalenceRelation α) (element : α) : Except (UnknownElementError α) ℕ :=
  match r.elementClassMap.lookup element with
  | some found => .ok found
  | none => .error ⟨element⟩

/-- The end of `Relate`: the elements of `class2` are appended to `class1`'s
list and reassigned to `class1`, and `class2` is deleted. -/
def mergeClasses (r : EquivalenceRelation α) (class1 class2 : ℕ) : EquivalenceRelation α :=
  -- Go reads `classElementsMap[class2]` again after writing `class1`; the ids differ
  let moved := (r.classElementsMap.lookup class2).getD []
  { r with
    classElementsMap :=
      (r.classElementsMap.insert class1 ((r.classElementsMap.lookup class1).getD [] ++ moved)).erase
        class2
    elementClassMap := moved.foldl (fun map element => map.insert element class1) r.elementClassMap }

/-- Go's `Relate`, returning its class, its error and the new state. -/
def relate (r : EquivalenceRelation α) (element1 element2 : α) :
    (ℕ × Option (UnknownElementError α)) × EquivalenceRelation α :=
  match r.elementClass element1 with
  | .error err => ((0, some err), r)
  | .ok class1 =>
    match r.elementClass element2 with
    | .error err => ((class1, some err), r)
    | .ok class2 =>
      if class1 = class2 then ((class1, none), r)
      else if class1 > class2 then ((class2, none), r.mergeClasses class2 class1)
      else ((class1, none), r.mergeClasses class1 class2)

def related (r : EquivalenceRelation α) (element1 element2 : α) :
    Except (UnknownElementError α) Bool := do
  let class1 ← r.elementClass element1
  let class2 ← r.elementClass element2
  return class1 == class2

/-- The class ids, increasing (Go collects the keys and runs `sort.Ints`). -/
def orderedClasses (r : EquivalenceRelation α) : List ℕ :=
  r.classElementsMap.keys.mergeSort fun a b => decide (a ≤ b)

def call (r : EquivalenceRelation α) : Call α → EquivalenceRelation α
  | .add element => r.add element
  | .addAll elements => r.addAll elements
  | .relate element1 element2 => (r.relate element1 element2).2

def run (r : EquivalenceRelation α) (calls : List (Call α)) : EquivalenceRelation α :=
  calls.foldl call r

/-! ## Each call, read off the source -/

variable {r : EquivalenceRelation α}

theorem add_of_lookup_some {element : α} {found : ℕ}
    (known : r.elementClassMap.lookup element = some found) : r.add element = r := by
  simp only [add, known]

theorem add_of_lookup_none {element : α} (unknown : r.elementClassMap.lookup element = none) :
    r.add element =
      ⟨r.elementClassMap.insert element r.classCounter,
        r.classElementsMap.insert r.classCounter [element], r.classCounter + 1⟩ := by
  simp only [add, unknown]

theorem elementClass_of_lookup {element : α} :
    ∀ {found : Option ℕ}, r.elementClassMap.lookup element = found →
      r.elementClass element = match found with
        | some found => .ok found
        | none => .error ⟨element⟩
  | some _, known => by simp only [elementClass, known]
  | none, unknown => by simp only [elementClass, unknown]

theorem relate_of_unknown_left {element1 element2 : α}
    (unknown : r.elementClassMap.lookup element1 = none) :
    r.relate element1 element2 = ((0, some ⟨element1⟩), r) := by
  simp only [relate, elementClass_of_lookup unknown]

theorem relate_of_unknown_right {element1 element2 : α} {class1 : ℕ}
    (known : r.elementClassMap.lookup element1 = some class1)
    (unknown : r.elementClassMap.lookup element2 = none) :
    r.relate element1 element2 = ((class1, some ⟨element2⟩), r) := by
  simp only [relate, elementClass_of_lookup known, elementClass_of_lookup unknown]

theorem relate_of_same {element1 element2 : α} {class1 : ℕ}
    (known : r.elementClassMap.lookup element1 = some class1)
    (known2 : r.elementClassMap.lookup element2 = some class1) :
    r.relate element1 element2 = ((class1, none), r) := by
  simp only [relate, elementClass_of_lookup known, elementClass_of_lookup known2, if_true]

theorem relate_of_lt {element1 element2 : α} {class1 class2 : ℕ}
    (known : r.elementClassMap.lookup element1 = some class1)
    (known2 : r.elementClassMap.lookup element2 = some class2) (lower : class1 < class2) :
    r.relate element1 element2 = ((class1, none), r.mergeClasses class1 class2) := by
  simp only [relate, elementClass_of_lookup known, elementClass_of_lookup known2,
    if_neg (Nat.ne_of_lt lower), gt_iff_lt, if_neg (Nat.lt_asymm lower)]

theorem relate_of_gt {element1 element2 : α} {class1 class2 : ℕ}
    (known : r.elementClassMap.lookup element1 = some class1)
    (known2 : r.elementClassMap.lookup element2 = some class2) (higher : class2 < class1) :
    r.relate element1 element2 = ((class2, none), r.mergeClasses class2 class1) := by
  simp only [relate, elementClass_of_lookup known, elementClass_of_lookup known2,
    if_neg (Nat.ne_of_gt higher), gt_iff_lt, if_pos higher]

example : (newEquivalenceRelation.run [.add 5, .add 7, .add 9, .relate 9 7]).classElementsMap.lookup 1 =
    some [7, 9] := by
  decide

/-- A `Relate` that returns an error changes nothing. -/
theorem relate_of_error {element1 element2 : α}
    (failed : (r.relate element1 element2).1.2.isSome) : (r.relate element1 element2).2 = r := by
  cases known : r.elementClassMap.lookup element1 with
  | none => rw [relate_of_unknown_left known]
  | some class1 =>
    cases known2 : r.elementClassMap.lookup element2 with
    | none => rw [relate_of_unknown_right known known2]
    | some class2 =>
      rcases lt_trichotomy class1 class2 with lower | rfl | higher
      · rw [relate_of_lt known known2 lower] at failed
        simp at failed
      · rw [relate_of_same known known2]
      · rw [relate_of_gt known known2 higher] at failed
        simp at failed

theorem related_eq_ok_true_iff {element1 element2 : α} :
    r.related element1 element2 = .ok true ↔
      ∃ found, r.elementClassMap.lookup element1 = some found ∧
        r.elementClassMap.lookup element2 = some found := by
  cases known : r.elementClassMap.lookup element1 with
  | none => simp [related, elementClass_of_lookup known, bind, Except.bind]
  | some class1 =>
    cases known2 : r.elementClassMap.lookup element2 with
    | none => simp [related, elementClass_of_lookup known, elementClass_of_lookup known2, bind, Except.bind]
    | some class2 =>
      simp [related, elementClass_of_lookup known, elementClass_of_lookup known2, bind, pure,
        Except.bind, Except.pure]
      exact eq_comm

theorem lookup_mergeClasses_elementClassMap (class1 class2 : ℕ) (element : α) :
    (r.mergeClasses class1 class2).elementClassMap.lookup element =
      if element ∈ (r.classElementsMap.lookup class2).getD [] then some class1
      else r.elementClassMap.lookup element :=
  lookup_foldl_insert_const class1 _ _ element

theorem lookup_mergeClasses_classElementsMap {class1 class2 k : ℕ} (other : k ≠ class2) :
    (r.mergeClasses class1 class2).classElementsMap.lookup k =
      if k = class1 then
        some ((r.classElementsMap.lookup class1).getD [] ++ (r.classElementsMap.lookup class2).getD [])
      else r.classElementsMap.lookup k := by
  simp only [mergeClasses, AList.lookup_erase_ne other]
  split_ifs with target
  · rw [target, AList.lookup_insert]
  · rw [AList.lookup_insert_ne target]

@[simp] theorem lookup_mergeClasses_deleted (class1 class2 : ℕ) :
    (r.mergeClasses class1 class2).classElementsMap.lookup class2 = none :=
  AList.lookup_erase _ _

@[simp] theorem mergeClasses_classCounter (class1 class2 : ℕ) :
    (r.mergeClasses class1 class2).classCounter = r.classCounter := rfl

/-- `OrderedClasses` lists every class id once, increasing. -/
theorem orderedClasses_pairwise_lt : r.orderedClasses.Pairwise (· < ·) := by
  have sorted := @List.pairwise_mergeSort ℕ (fun a b => decide (a ≤ b))
    (fun _ _ _ first second => by simp_all only [decide_eq_true_eq]; omega)
    (fun a b => by simp only [decide_eq_true_eq, Bool.or_eq_true]; omega) r.classElementsMap.keys
  have nodup : (r.orderedClasses).Nodup :=
    (List.mergeSort_perm _ _).nodup_iff.mpr r.classElementsMap.keys_nodup
  refine (sorted.and nodup).imp ?_
  rintro a b ⟨le, ne⟩
  simp only [decide_eq_true_eq] at le
  omega

theorem mem_orderedClasses {k : ℕ} : k ∈ r.orderedClasses ↔ k ∈ r.classElementsMap := by
  rw [orderedClasses, List.mem_mergeSort, AList.mem_keys]

end EquivalenceRelation

/-! ## What the calls mean -/

/-- The elements in the order they were first added, and the pairs that
successful `Relate` calls declared related. -/
structure Meaning (α : Type*) where
  added : List α
  links : List (α × α)

namespace Meaning

def empty : Meaning α := ⟨[], []⟩

def add (m : Meaning α) (element : α) : Meaning α :=
  if element ∈ m.added then m else ⟨m.added ++ [element], m.links⟩

def link (m : Meaning α) (element1 element2 : α) : Meaning α :=
  ⟨m.added, m.links ++ [(element1, element2)]⟩

/-- A `Relate` of two added elements succeeds and declares them related. -/
def relate (m : Meaning α) (element1 element2 : α) : Meaning α :=
  if element1 ∈ m.added ∧ element2 ∈ m.added then m.link element1 element2 else m

def call (m : Meaning α) : Call α → Meaning α
  | .add element => m.add element
  | .addAll elements => elements.foldl add m
  | .relate element1 element2 => m.relate element1 element2

def run (m : Meaning α) (calls : List (Call α)) : Meaning α :=
  calls.foldl call m

/-- The pairs declared related, as a relation. -/
def Linked (m : Meaning α) (x y : α) : Prop := (x, y) ∈ m.links

/-- The value of `classCounter` when `element` was added. -/
def index (m : Meaning α) (element : α) : ℕ := m.added.idxOf element

variable {m : Meaning α}

omit [DecidableEq α] in
@[simp] theorem link_added (element1 element2 : α) : (m.link element1 element2).added = m.added :=
  rfl

omit [DecidableEq α] in
theorem linked_link (element1 element2 : α) :
    (m.link element1 element2).Linked = addEdge m.Linked element1 element2 := by
  funext x y
  simp [Linked, link, addEdge]

end Meaning

/-! ## The invariant -/

namespace EquivalenceRelation

/-- How the two maps hold what the calls mean. -/
structure Inv (r : EquivalenceRelation α) (m : Meaning α) : Prop where
  counter : r.classCounter = m.added.length
  nodup : m.added.Nodup
  known : ∀ element, (r.elementClassMap.lookup element).isSome ↔ element ∈ m.added
  members : ∀ element k, r.elementClassMap.lookup element = some k ↔
    ∃ l, r.classElementsMap.lookup k = some l ∧ element ∈ l
  nodupMembers : ∀ k l, r.classElementsMap.lookup k = some l → l.Nodup
  least : ∀ k l, r.classElementsMap.lookup k = some l →
    ∃ element ∈ l, m.index element = k ∧ ∀ other ∈ l, k ≤ m.index other
  represents : Represents m.Linked r.elementClassMap.lookup

theorem inv_new : Inv (newEquivalenceRelation : EquivalenceRelation α) Meaning.empty where
  counter := rfl
  nodup := List.nodup_nil
  known _ := by simp [newEquivalenceRelation, Meaning.empty]
  members _ _ := by simp [newEquivalenceRelation]
  nodupMembers _ _ := by simp [newEquivalenceRelation]
  least _ _ := by simp [newEquivalenceRelation]
  represents := ⟨fun _ _ => by simp [Meaning.Linked, Meaning.empty],
    fun _ _ => by simp [newEquivalenceRelation]⟩

namespace Inv

variable {r : EquivalenceRelation α} {m : Meaning α}

theorem mem_added (inv : Inv r m) {element : α} {k : ℕ}
    (found : r.elementClassMap.lookup element = some k) : element ∈ m.added :=
  (inv.known element).mp (by simp [found])

theorem le_index (inv : Inv r m) {element : α} {k : ℕ}
    (found : r.elementClassMap.lookup element = some k) : k ≤ m.index element := by
  obtain ⟨l, listed, mem⟩ := (inv.members element k).mp found
  obtain ⟨_, _, _, least⟩ := inv.least k l listed
  exact least element mem

/-- Every class id is below the counter, so the next id is fresh. -/
theorem lt_counter (inv : Inv r m) {k : ℕ} {l : List α}
    (listed : r.classElementsMap.lookup k = some l) : k < r.classCounter := by
  obtain ⟨element, mem, index, _⟩ := inv.least k l listed
  have added := inv.mem_added ((inv.members element k).mpr ⟨l, listed, mem⟩)
  rw [inv.counter, ← index]
  exact List.idxOf_lt_length_iff.mpr added

theorem mem_getD_iff (inv : Inv r m) (k : ℕ) {element : α} :
    element ∈ (r.classElementsMap.lookup k).getD [] ↔ r.elementClassMap.lookup element = some k := by
  rw [inv.members]
  cases r.classElementsMap.lookup k <;> simp

theorem nodup_getD (inv : Inv r m) (k : ℕ) : ((r.classElementsMap.lookup k).getD []).Nodup := by
  cases listed : r.classElementsMap.lookup k with
  | none => exact List.nodup_nil
  | some l => exact inv.nodupMembers k l listed

/-- After a merge, an element of the higher class reads the lower one. -/
theorem lookup_mergeClasses (inv : Inv r m) (low high : ℕ) (element : α) :
    (r.mergeClasses low high).elementClassMap.lookup element =
      if r.elementClassMap.lookup element = some high then some low
        else r.elementClassMap.lookup element := by
  simp only [lookup_mergeClasses_elementClassMap, inv.mem_getD_iff]

/-- Recording another link keeps every part of the invariant but the closure. -/
theorem withLink (inv : Inv r m) {element1 element2 : α}
    (represents : Represents (m.link element1 element2).Linked r.elementClassMap.lookup) :
    Inv r (m.link element1 element2) :=
  { inv with represents }

/-- Relating two elements of one class changes no map. -/
theorem link_of_same (inv : Inv r m) {element1 element2 : α} {k : ℕ}
    (known : r.elementClassMap.lookup element1 = some k)
    (known2 : r.elementClassMap.lookup element2 = some k) : Inv r (m.link element1 element2) := by
  refine inv.withLink ?_
  rw [Meaning.linked_link]
  exact inv.represents.addEdge_of_same (by simp [known]) (known.trans known2.symm)

theorem swap {element1 element2 : α} (inv : Inv r (m.link element2 element1)) :
    Inv r (m.link element1 element2) :=
  { inv with
    represents := by
      have swapped := inv.represents
      rw [Meaning.linked_link] at swapped ⊢
      exact swapped.symm_addEdge }

theorem add_fresh (inv : Inv r m) {element : α} (unknown : r.elementClassMap.lookup element = none) :
    Inv (r.add element) (m.add element) := by
  have fresh : element ∉ m.added := by simp [← inv.known element, unknown]
  have unused : ∀ other, r.elementClassMap.lookup other ≠ some r.classCounter := by
    intro other found
    obtain ⟨l, listed, _⟩ := (inv.members other _).mp found
    exact Nat.lt_irrefl _ (inv.lt_counter listed)
  have kept : ∀ {other}, other ∈ m.added → (m.added ++ [element]).idxOf other = m.index other :=
    fun mem => List.idxOf_append_of_mem mem
  rw [add_of_lookup_none unknown, Meaning.add, if_neg fresh]
  refine ⟨by simp [inv.counter], ?_, ?_, ?_, ?_, ?_, ?_⟩
  · refine inv.nodup.append (List.nodup_singleton element) ?_
    intro other mem single
    rw [List.mem_singleton] at single
    exact fresh (single ▸ mem)
  · intro other
    by_cases same : other = element
    · subst same
      simp
    · simp [AList.lookup_insert_ne same, inv.known other, same]
  · intro other k
    by_cases newClass : k = r.classCounter
    · subst newClass
      by_cases same : other = element
      · subst same
        simp
      · simp [AList.lookup_insert_ne same, unused other, same]
    · rw [AList.lookup_insert_ne newClass]
      by_cases same : other = element
      · subst same
        rw [AList.lookup_insert, ← inv.members, unknown]
        simp [Ne.symm newClass]
      · rw [AList.lookup_insert_ne same, inv.members]
  · intro k l listed
    by_cases newClass : k = r.classCounter
    · subst newClass
      rw [AList.lookup_insert] at listed
      cases listed
      exact List.nodup_singleton element
    · rw [AList.lookup_insert_ne newClass] at listed
      exact inv.nodupMembers k l listed
  · intro k l listed
    by_cases newClass : k = r.classCounter
    · -- the new class holds the new element alone, at index `classCounter`
      subst newClass
      rw [AList.lookup_insert] at listed
      cases listed
      simp [Meaning.index, List.idxOf_append_of_notMem fresh, inv.counter]
    · rw [AList.lookup_insert_ne newClass] at listed
      obtain ⟨least, mem, index, below⟩ := inv.least k l listed
      have added : ∀ other ∈ l, other ∈ m.added := fun other mem =>
        inv.mem_added ((inv.members other k).mpr ⟨l, listed, mem⟩)
      refine ⟨least, mem, ?_, fun other mem => ?_⟩
      · simp only [Meaning.index, kept (added least mem)]
        exact index
      · simp only [Meaning.index, kept (added other mem)]
        exact below other mem
  · rw [lookup_insert_eq_update]
    exact inv.represents.insert_fresh unknown unused

theorem add (inv : Inv r m) (element : α) : Inv (r.add element) (m.add element) := by
  cases found : r.elementClassMap.lookup element with
  | none => exact inv.add_fresh found
  | some k =>
    rw [add_of_lookup_some found, Meaning.add, if_pos (inv.mem_added found)]
    exact inv

theorem addAll (inv : Inv r m) (elements : List α) :
    Inv (r.addAll elements) (elements.foldl Meaning.add m) := by
  induction elements generalizing r m with
  | nil => exact inv
  | cons element rest ih => exact ih (inv.add element)

/-- Merging the class of `element2` into the lower class of `element1`. -/
theorem mergeClasses (inv : Inv r m) {element1 element2 : α} {low high : ℕ}
    (known : r.elementClassMap.lookup element1 = some low)
    (known2 : r.elementClassMap.lookup element2 = some high) (lower : low < high) :
    Inv (r.mergeClasses low high) (m.link element1 element2) := by
  refine ⟨inv.counter, inv.nodup, ?_, ?_, ?_, ?_, ?_⟩
  · intro other
    rw [inv.lookup_mergeClasses, Meaning.link_added, ← inv.known other]
    split_ifs with moved <;> simp [moved]
  · intro other k
    rw [inv.lookup_mergeClasses]
    by_cases deleted : k = high
    · subst deleted
      simp only [lookup_mergeClasses_deleted, reduceCtorEq, false_and, exists_false, iff_false]
      split_ifs with moved
      · simpa using Nat.ne_of_lt lower
      · exact moved
    · rw [lookup_mergeClasses_classElementsMap deleted]
      by_cases target : k = low
      · -- the lower class now holds both lists
        subst target
        simp only [↓reduceIte, Option.some.injEq, exists_eq_left', List.mem_append, inv.mem_getD_iff]
        split_ifs with moved <;> simp [moved]
      · rw [if_neg target, ← inv.members]
        split_ifs with moved
        · simp [moved, Ne.symm target, Ne.symm deleted]
        · rfl
  · intro k l listed
    by_cases deleted : k = high
    · subst deleted
      simp at listed
    · rw [lookup_mergeClasses_classElementsMap deleted] at listed
      split_ifs at listed with target
      · cases listed
        refine (inv.nodup_getD _).append (inv.nodup_getD _) ?_
        intro other inLow inHigh
        rw [inv.mem_getD_iff] at inLow inHigh
        exact Nat.ne_of_lt lower (Option.some.inj (inLow.symm.trans inHigh))
      · exact inv.nodupMembers k l listed
  · intro k l listed
    by_cases deleted : k = high
    · subst deleted
      simp at listed
    · rw [lookup_mergeClasses_classElementsMap deleted] at listed
      split_ifs at listed with target
      · -- the least index of the lower class is below every index of the higher one
        cases listed
        subst target
        obtain ⟨lowList, lowListed, _⟩ := (inv.members element1 _).mp known
        obtain ⟨first, mem, index, _⟩ := inv.least _ lowList lowListed
        refine ⟨first, by simp [lowListed, mem], index, ?_⟩
        intro other mem'
        rw [List.mem_append, inv.mem_getD_iff, inv.mem_getD_iff] at mem'
        rcases mem' with inLow | inHigh
        · exact inv.le_index inLow
        · exact Nat.le_of_lt (Nat.lt_of_lt_of_le lower (inv.le_index inHigh))
      · exact inv.least k l listed
  · have relabel : (r.mergeClasses low high).elementClassMap.lookup =
        fun element => if r.elementClassMap.lookup element = some high then some low
          else r.elementClassMap.lookup element :=
      funext (inv.lookup_mergeClasses low high)
    rw [relabel, Meaning.linked_link]
    exact inv.represents.merge known known2

theorem relate (inv : Inv r m) (element1 element2 : α) :
    Inv (r.relate element1 element2).2 (m.relate element1 element2) := by
  cases known : r.elementClassMap.lookup element1 with
  | none =>
    have missing : element1 ∉ m.added := by simp [← inv.known element1, known]
    rw [relate_of_unknown_left known, Meaning.relate, if_neg fun both => missing both.1]
    exact inv
  | some class1 =>
    cases known2 : r.elementClassMap.lookup element2 with
    | none =>
      have missing : element2 ∉ m.added := by simp [← inv.known element2, known2]
      rw [relate_of_unknown_right known known2, Meaning.relate,
        if_neg fun both => missing both.2]
      exact inv
    | some class2 =>
      rw [Meaning.relate, if_pos ⟨inv.mem_added known, inv.mem_added known2⟩]
      rcases lt_trichotomy class1 class2 with lower | rfl | higher
      · rw [relate_of_lt known known2 lower]
        exact inv.mergeClasses known known2 lower
      · rw [relate_of_same known known2]
        exact inv.link_of_same known known2
      · rw [relate_of_gt known known2 higher]
        exact (inv.mergeClasses known2 known higher).swap

theorem call (inv : Inv r m) : ∀ c : Call α, Inv (r.call c) (m.call c)
  | .add element => inv.add element
  | .addAll elements => inv.addAll elements
  | .relate element1 element2 => inv.relate element1 element2

theorem run (inv : Inv r m) (calls : List (Call α)) : Inv (r.run calls) (m.run calls) := by
  induction calls generalizing r m with
  | nil => exact inv
  | cons c rest ih => exact ih (inv.call c)

theorem mem_added_iff (inv : Inv r m) (element : α) :
    element ∈ m.added ↔ ∃ k l, r.classElementsMap.lookup k = some l ∧ element ∈ l := by
  rw [← inv.known element, Option.isSome_iff_exists]
  exact exists_congr fun k => inv.members element k

theorem ne_nil_nodup (inv : Inv r m) {k : ℕ} {l : List α}
    (listed : r.classElementsMap.lookup k = some l) : l ≠ [] ∧ l.Nodup := by
  obtain ⟨element, mem, _⟩ := inv.least k l listed
  exact ⟨List.ne_nil_of_mem mem, inv.nodupMembers k l listed⟩

/-- No element is listed in two classes. -/
theorem eq_of_mem_of_mem (inv : Inv r m) {element : α} {k k2 : ℕ} {l l2 : List α}
    (listed : r.classElementsMap.lookup k = some l) (listed2 : r.classElementsMap.lookup k2 = some l2)
    (mem : element ∈ l) (mem2 : element ∈ l2) : k = k2 := by
  have found := (inv.members element k).mpr ⟨l, listed, mem⟩
  have found2 := (inv.members element k2).mpr ⟨l2, listed2, mem2⟩
  exact Option.some.inj (found.symm.trans found2)

/-- `Related` answers the equivalence closure of the links among added elements. -/
theorem related_iff (inv : Inv r m) (element1 element2 : α) :
    r.related element1 element2 = .ok true ↔
      element1 ∈ m.added ∧ element2 ∈ m.added ∧ EqvGen m.Linked element1 element2 := by
  rw [related_eq_ok_true_iff]
  constructor
  · rintro ⟨k, known, known2⟩
    have labelled : (r.elementClassMap.lookup element1).isSome := by simp [known]
    have labelled2 : (r.elementClassMap.lookup element2).isSome := by simp [known2]
    exact ⟨inv.mem_added known, inv.mem_added known2,
      (inv.represents.classes _ _ labelled labelled2).mp (known.trans known2.symm)⟩
  · rintro ⟨added, added2, joined⟩
    have labelled := (inv.known element1).mpr added
    have labelled2 := (inv.known element2).mpr added2
    obtain ⟨k, known⟩ := Option.isSome_iff_exists.mp labelled
    have same := (inv.represents.classes _ _ labelled labelled2).mpr joined
    exact ⟨k, known, same.symm.trans known⟩

end Inv

/-- After any sequence of calls from a new relation: the lists partition the
added elements, the element map agrees with them, `Related` is the equivalence
closure of the successful `Relate` calls, each id is the least add-order index
in its class and `OrderedClasses` lists the ids increasing, and a `Relate` that
fails changes nothing. -/
theorem run_invariants (calls : List (Call α)) :
    let r := (newEquivalenceRelation : EquivalenceRelation α).run calls
    let m := Meaning.empty.run calls
    ((∀ element, element ∈ m.added ↔ ∃ k l, r.classElementsMap.lookup k = some l ∧ element ∈ l) ∧
      (∀ k l, r.classElementsMap.lookup k = some l → l ≠ [] ∧ l.Nodup) ∧
      (∀ element k k2 l l2, r.classElementsMap.lookup k = some l →
        r.classElementsMap.lookup k2 = some l2 → element ∈ l → element ∈ l2 → k = k2)) ∧
    (∀ element k, r.elementClassMap.lookup element = some k ↔
      ∃ l, r.classElementsMap.lookup k = some l ∧ element ∈ l) ∧
    (∀ element1 element2, r.related element1 element2 = .ok true ↔
      element1 ∈ m.added ∧ element2 ∈ m.added ∧ EqvGen m.Linked element1 element2) ∧
    ((∀ k l, r.classElementsMap.lookup k = some l →
        ∃ element ∈ l, m.index element = k ∧ ∀ other ∈ l, k ≤ m.index other) ∧
      r.orderedClasses.Pairwise (· < ·) ∧ ∀ k, k ∈ r.orderedClasses ↔ k ∈ r.classElementsMap) ∧
    ∀ element1 element2, (r.relate element1 element2).1.2.isSome →
      (r.relate element1 element2).2 = r := by
  intro r m
  have inv : Inv r m := inv_new.run calls
  refine ⟨⟨inv.mem_added_iff, fun _ _ => inv.ne_nil_nodup, fun _ _ _ _ _ => inv.eq_of_mem_of_mem⟩,
    inv.members, inv.related_iff, ⟨inv.least, orderedClasses_pairwise_lt, fun _ => mem_orderedClasses⟩,
    fun _ _ => relate_of_error⟩

end EquivalenceRelation

end Vitess.Mathutil
