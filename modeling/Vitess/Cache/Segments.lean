import Vitess.Cache.Policy
import Mathlib.Algebra.BigOperators.Group.List.Basic
import Mathlib.Data.List.Nodup
import Mathlib.Algebra.Group.Prod

/-!
# The segments of the policy

Facts about the lists of `list.go` and the segmented LRU of `slru.go` that the policy's
invariants rest on.

* A segment is well formed (`EntryList.WellFormed`) when it is bounded, its `count` is
  the number of its entries, and every entry carries the segment's mark and a positive
  cost. `unlink`, `popTail`, `pushFront` and the store's cost writes keep it so.
* `len` is the sum of the costs only up to the segment's `drift`. Linking and unlinking
  add and take off the entry's cost as it stands, so they keep the drift; a cost written
  into an entry the segment holds moves it by the difference (`drift_setCost`), and
  `updateCost` by its delta (`drift_addLen`).
* `PushFront` onto a segment below its capacity evicts nothing (`pushFront_of_lt`).
  `insert` and `access` drop what the probation segment's `PushFront` returns; while
  both drifts are zero and the cache fits its size, that is nothing.
* Each operation of `Slru` keeps the keys of the cache, up to order, save for what it
  takes in, hands back or drops (`WellFormed.insert`, `WellFormed.access`,
  `WellFormed.remove`, `WellFormed.evictLoop`).
-/

namespace Vitess.Theine

variable {K : Type}

/-- The sum of the costs of a list of entries. -/
def costOf (es : List (Entry K)) : ℤ :=
  (es.map Entry.cost).sum

@[simp] theorem costOf_nil : costOf ([] : List (Entry K)) = 0 := rfl

@[simp] theorem costOf_cons (e : Entry K) (es : List (Entry K)) : costOf (e :: es) = e.cost + costOf es := by
  simp [costOf]

theorem costOf_append (es fs : List (Entry K)) : costOf (es ++ fs) = costOf es + costOf fs := by
  simp [costOf]

theorem costOf_eq_of_perm {es fs : List (Entry K)} (perm : es.Perm fs) : costOf es = costOf fs :=
  (perm.map _).sum_eq

theorem costOf_nonneg {es : List (Entry K)} (positive : ∀ e ∈ es, 0 < e.cost) : 0 ≤ costOf es := by
  induction es with
  | nil => rfl
  | cons e rest ih =>
    have head := positive e List.mem_cons_self
    have tail := ih fun x mem => positive x (List.mem_cons_of_mem _ mem)
    rw [costOf_cons]
    omega

/-- The last entry of a list, split off. -/
theorem eq_dropLast_append {es : List (Entry K)} {e : Entry K} (last : es.getLast? = some e) :
    es = es.dropLast ++ [e] := by
  obtain ⟨front, rfl⟩ := List.getLast?_eq_some_iff.mp last
  rw [List.dropLast_concat]

theorem perm_dropLast {es : List (Entry K)} {e : Entry K} (last : es.getLast? = some e) :
    es.Perm (e :: es.dropLast) := by
  conv_lhs => rw [eq_dropLast_append last]
  exact List.perm_append_comm

namespace EntryList

/-- A segment with the marks of `listType`: bounded, with `count` the number of its
entries, and every entry marked and of positive cost. -/
structure WellFormed (l : EntryList K) (listType : UInt8) : Prop where
  typed : l.listType = listType
  bounded : l.bounded = true
  room : 0 < l.capacity
  count : l.count = l.entries.length
  marked : ∀ e ∈ l.entries, e.list = listType
  positive : ∀ e ∈ l.entries, 0 < e.cost

/-- How far `len` is from the sum of the costs of the entries. -/
def drift (l : EntryList K) : ℤ :=
  l.len - costOf l.entries

/-- `insert` after the root of a bounded list: `e` at the front with the list's mark,
its cost and one more entry counted. -/
def link (l : EntryList K) (e : Entry K) : EntryList K :=
  { l with
    entries := { e with list := l.listType } :: l.entries
    len := l.len + e.cost
    count := l.count + 1 }

section Segment

variable {l : EntryList K} {listType : UInt8}

@[simp] theorem entries_unlink (e : Entry K) (rest : List (Entry K)) : (l.unlink e rest).entries = rest := rfl

@[simp] theorem capacity_link (e : Entry K) : (l.link e).capacity = l.capacity := rfl

@[simp] theorem keys_link (e : Entry K) :
    (l.link e).entries.map Entry.key = e.key :: l.entries.map Entry.key := rfl

/-- Unlinking one entry keeps a segment well formed. -/
theorem WellFormed.unlink (wf : l.WellFormed listType) {e : Entry K} {rest : List (Entry K)}
    (perm : l.entries.Perm (e :: rest)) : (l.unlink e rest).WellFormed listType where
  typed := wf.typed
  bounded := wf.bounded
  room := wf.room
  count := by
    simp only [EntryList.unlink, wf.bounded, if_true, wf.count, perm.length_eq, List.length_cons]
    omega
  marked := fun x mem => wf.marked x (perm.symm.subset (List.mem_cons_of_mem _ mem))
  positive := fun x mem => wf.positive x (perm.symm.subset (List.mem_cons_of_mem _ mem))

/-- Unlinking takes off the cost the entry has now, which it also takes out of the sum. -/
theorem drift_unlink (bounded : l.bounded = true) {e : Entry K} {rest : List (Entry K)}
    (perm : l.entries.Perm (e :: rest)) : (l.unlink e rest).drift = l.drift := by
  simp only [drift, EntryList.unlink, bounded, if_true, costOf_eq_of_perm perm, costOf_cons]
  omega

/-- Linking an entry of positive cost at the front keeps a segment well formed. -/
theorem WellFormed.link (wf : l.WellFormed listType) {e : Entry K} (positive : 0 < e.cost) :
    (l.link e).WellFormed listType where
  typed := wf.typed
  bounded := wf.bounded
  room := wf.room
  count := by simp only [EntryList.link, List.length_cons, wf.count]; omega
  marked := by
    intro x mem
    rcases List.mem_cons.mp mem with rfl | mem
    · exact wf.typed
    · exact wf.marked x mem
  positive := by
    intro x mem
    rcases List.mem_cons.mp mem with rfl | mem
    · exact positive
    · exact wf.positive x mem

@[simp] theorem drift_link (e : Entry K) : (l.link e).drift = l.drift := by
  simp only [drift, EntryList.link, costOf_cons]
  omega

theorem popTail_of_getLast {e : Entry K} (last : l.entries.getLast? = some e) :
    l.popTail = (l.unlink e l.entries.dropLast, some { e with list := 0 }) := by
  simp [popTail, last]

theorem popTail_of_nil (empty : l.entries = []) : l.popTail = (l, none) := by
  simp [popTail, empty]

theorem WellFormed.popTail (wf : l.WellFormed listType) : l.popTail.1.WellFormed listType := by
  cases last : l.entries.getLast? with
  | none => rw [popTail_of_nil (List.getLast?_eq_none_iff.mp last)]; exact wf
  | some e => rw [popTail_of_getLast last]; exact wf.unlink (perm_dropLast last)

theorem drift_popTail (bounded : l.bounded = true) : l.popTail.1.drift = l.drift := by
  cases last : l.entries.getLast? with
  | none => rw [popTail_of_nil (List.getLast?_eq_none_iff.mp last)]
  | some e => rw [popTail_of_getLast last]; exact drift_unlink bounded (perm_dropLast last)

/-- `PopTail` hands back the last entry: the keys before are the keys after with the
popped one at the end. -/
theorem keys_popTail (l : EntryList K) :
    l.popTail.1.entries.map Entry.key ++ l.popTail.2.toList.map Entry.key = l.entries.map Entry.key := by
  cases last : l.entries.getLast? with
  | none => simp [popTail_of_nil (List.getLast?_eq_none_iff.mp last)]
  | some e =>
    rw [popTail_of_getLast last]
    conv_rhs => rw [eq_dropLast_append last]
    simp

theorem len_popTail (bounded : l.bounded = true) :
    l.popTail.1.len + costOf (l.popTail.2.toList) = l.len := by
  cases last : l.entries.getLast? with
  | none => simp [popTail_of_nil (List.getLast?_eq_none_iff.mp last)]
  | some e =>
    rw [popTail_of_getLast last]
    simp only [EntryList.unlink, bounded, if_true, Option.toList_some, costOf_cons, costOf_nil]
    omega

theorem bounded_popTail (bounded : l.bounded = true) : l.popTail.1.bounded = true := by
  cases last : l.entries.getLast? with
  | none => rw [popTail_of_nil (List.getLast?_eq_none_iff.mp last)]; exact bounded
  | some e => rw [popTail_of_getLast last]; exact bounded

theorem capacity_popTail (l : EntryList K) : l.popTail.1.capacity = l.capacity := by
  cases last : l.entries.getLast? with
  | none => rw [popTail_of_nil (List.getLast?_eq_none_iff.mp last)]
  | some e => rw [popTail_of_getLast last]; rfl

/-- `PushFront` below the capacity evicts nothing. -/
theorem pushFront_of_lt (bounded : l.bounded = true) (room : l.len < l.capacity) (e : Entry K) :
    l.pushFront e = (l.link e, none) := by
  have notFull : ¬ (l.bounded = true ∧ (l.capacity : ℤ) ≤ l.len) := fun full => absurd full.2 (not_le.mpr room)
  simp only [pushFront]
  rw [if_neg notFull]
  simp only [bounded, if_true, EntryList.link]

theorem pushFront_snd_of_lt (bounded : l.bounded = true) (room : l.len < l.capacity) (e : Entry K) :
    (l.pushFront e).2 = none := by
  rw [pushFront_of_lt bounded room]

/-- `PushFront` of a full segment first pops its tail, and hands it back. -/
theorem pushFront_of_le (bounded : l.bounded = true) (full : (l.capacity : ℤ) ≤ l.len) (e : Entry K) :
    l.pushFront e = (l.popTail.1.link e, l.popTail.2) := by
  simp only [pushFront]
  rw [if_pos (And.intro bounded full)]
  simp only [bounded_popTail bounded, if_true, EntryList.link]

theorem WellFormed.pushFront (wf : l.WellFormed listType) {e : Entry K} (positive : 0 < e.cost) :
    (l.pushFront e).1.WellFormed listType := by
  by_cases full : (l.capacity : ℤ) ≤ l.len
  · rw [pushFront_of_le wf.bounded full]
    exact wf.popTail.link positive
  · rw [pushFront_of_lt wf.bounded (not_le.mp full)]
    exact wf.link positive

theorem drift_pushFront (bounded : l.bounded = true) (e : Entry K) : (l.pushFront e).1.drift = l.drift := by
  by_cases full : (l.capacity : ℤ) ≤ l.len
  · rw [pushFront_of_le bounded full, drift_link, drift_popTail bounded]
  · rw [pushFront_of_lt bounded (not_le.mp full), drift_link]

theorem capacity_pushFront (bounded : l.bounded = true) (e : Entry K) :
    (l.pushFront e).1.capacity = l.capacity := by
  by_cases full : (l.capacity : ℤ) ≤ l.len
  · rw [pushFront_of_le bounded full, capacity_link, capacity_popTail]
  · rw [pushFront_of_lt bounded (not_le.mp full), capacity_link]

/-- `PushFront` takes the new key in and hands back at most the tail. -/
theorem keys_pushFront (l : EntryList K) (bounded : l.bounded = true) (e : Entry K) :
    ((l.pushFront e).1.entries.map Entry.key ++ (l.pushFront e).2.toList.map Entry.key).Perm
      (e.key :: l.entries.map Entry.key) := by
  by_cases full : (l.capacity : ℤ) ≤ l.len
  · rw [pushFront_of_le bounded full]
    simp only [keys_link, List.cons_append, keys_popTail]
    exact List.Perm.refl _
  · rw [pushFront_of_lt bounded (not_le.mp full)]
    simp

/-- `PopTail` hands back nothing only from an empty segment, and otherwise takes one
entry off. -/
theorem popTail_snd_eq_none_iff (l : EntryList K) : l.popTail.2 = none ↔ l.entries = [] := by
  cases last : l.entries.getLast? with
  | none => simp [popTail_of_nil (List.getLast?_eq_none_iff.mp last), List.getLast?_eq_none_iff.mp last]
  | some e =>
    rw [popTail_of_getLast last]
    simp only [reduceCtorEq, false_iff]
    intro empty
    rw [empty] at last
    cases last

theorem length_popTail {x : Entry K} (popped : l.popTail.2 = some x) :
    l.popTail.1.entries.length + 1 = l.entries.length := by
  have keys := congrArg List.length (keys_popTail l)
  rw [popped] at keys
  simpa using keys

/-- The entry `PopTail` hands back came from the segment, with its cost. -/
theorem cost_pos_of_popTail (wf : l.WellFormed listType) {x : Entry K} (popped : l.popTail.2 = some x) :
    0 < x.cost := by
  cases last : l.entries.getLast? with
  | none => rw [popTail_of_nil (List.getLast?_eq_none_iff.mp last)] at popped; cases popped
  | some e =>
    rw [popTail_of_getLast last] at popped
    cases popped
    exact wf.positive e (List.mem_of_getLast? last)

theorem cost_pos_of_pushFront (wf : l.WellFormed listType) {e x : Entry K} (evicted : (l.pushFront e).2 = some x) :
    0 < x.cost := by
  by_cases full : (l.capacity : ℤ) ≤ l.len
  · rw [pushFront_of_le wf.bounded full] at evicted
    exact cost_pos_of_popTail wf evicted
  · rw [pushFront_of_lt wf.bounded (not_le.mp full)] at evicted
    cases evicted

theorem costOf_pushFront_nonneg (wf : l.WellFormed listType) (e : Entry K) :
    0 ≤ costOf (l.pushFront e).2.toList := by
  cases evicted : (l.pushFront e).2 with
  | none => rfl
  | some x =>
    have := cost_pos_of_pushFront wf evicted
    simp only [Option.toList_some, costOf_cons, costOf_nil]
    omega

theorem len_pushFront (bounded : l.bounded = true) (e : Entry K) :
    (l.pushFront e).1.len + costOf (l.pushFront e).2.toList = l.len + e.cost := by
  by_cases full : (l.capacity : ℤ) ≤ l.len
  · rw [pushFront_of_le bounded full]
    have popped := len_popTail bounded
    simp only [EntryList.link]
    omega
  · rw [pushFront_of_lt bounded (not_le.mp full)]
    simp [EntryList.link]

@[simp] theorem drift_addLen (delta : ℤ) : (l.addLen delta).drift = l.drift + delta := by
  simp only [drift, EntryList.addLen]
  omega

theorem WellFormed.addLen (wf : l.WellFormed listType) (delta : ℤ) : (l.addLen delta).WellFormed listType :=
  ⟨wf.typed, wf.bounded, wf.room, wf.count, wf.marked, wf.positive⟩

section Keyed

variable [DecidableEq K]

theorem WellFormed.remove (wf : l.WellFormed listType) {e : Entry K} (mem : e ∈ l.entries) :
    (l.remove e).WellFormed listType :=
  wf.unlink (List.perm_cons_erase mem)

theorem drift_remove (bounded : l.bounded = true) {e : Entry K} (mem : e ∈ l.entries) :
    (l.remove e).drift = l.drift :=
  drift_unlink bounded (List.perm_cons_erase mem)

theorem keys_remove {e : Entry K} (mem : e ∈ l.entries) :
    (e.key :: (l.remove e).entries.map Entry.key).Perm (l.entries.map Entry.key) :=
  ((List.perm_cons_erase mem).map Entry.key).symm

theorem len_remove (bounded : l.bounded = true) (e : Entry K) : (l.remove e).len = l.len - e.cost := by
  simp [EntryList.remove, EntryList.unlink, bounded]

theorem WellFormed.moveToFront (wf : l.WellFormed listType) {e : Entry K} (mem : e ∈ l.entries) :
    (l.moveToFront e).WellFormed listType where
  typed := wf.typed
  bounded := wf.bounded
  room := wf.room
  count := by
    show l.count = ((e :: l.entries.erase e).length : ℤ)
    rw [wf.count, (List.perm_cons_erase mem).length_eq]
  marked := fun x inside => wf.marked x ((List.perm_cons_erase mem).symm.subset inside)
  positive := fun x inside => wf.positive x ((List.perm_cons_erase mem).symm.subset inside)

theorem drift_moveToFront {e : Entry K} (mem : e ∈ l.entries) : (l.moveToFront e).drift = l.drift := by
  show l.len - costOf (e :: l.entries.erase e) = l.len - costOf l.entries
  rw [costOf_eq_of_perm (List.perm_cons_erase mem)]

theorem keys_moveToFront {e : Entry K} (mem : e ∈ l.entries) :
    ((l.moveToFront e).entries.map Entry.key).Perm (l.entries.map Entry.key) :=
  ((List.perm_cons_erase mem).map Entry.key).symm

/-- The store's write of a cost into an entry that is not in the segment changes nothing. -/
theorem setCost_of_not_mem {key : K} (absent : key ∉ l.entries.map Entry.key) (cost : ℤ) :
    l.setCost key cost = l := by
  have same : l.entries.map (fun x => if x.key = key then { x with cost } else x) = l.entries := by
    conv_rhs => rw [← List.map_id l.entries]
    apply List.map_congr_left
    intro x mem
    have other : x.key ≠ key := fun same => absent (List.mem_map.mpr ⟨x, mem, same⟩)
    simp [other]
  simp only [EntryList.setCost, same]

@[simp] theorem keys_setCost (key : K) (cost : ℤ) :
    (l.setCost key cost).entries.map Entry.key = l.entries.map Entry.key := by
  simp only [EntryList.setCost, List.map_map]
  apply List.map_congr_left
  intro x _
  by_cases same : x.key = key <;> simp [same]

/-- Writing a cost into the one entry of a key changes the sum of the costs by the
difference. -/
theorem costOf_setCost {es : List (Entry K)} (nodup : (es.map Entry.key).Nodup) {e : Entry K}
    (mem : e ∈ es) (cost : ℤ) :
    costOf (es.map fun x => if x.key = e.key then { x with cost } else x) = costOf es - e.cost + cost := by
  induction es with
  | nil => simp at mem
  | cons x rest ih =>
    rw [List.map_cons, List.nodup_cons] at nodup
    rcases List.mem_cons.mp mem with rfl | inRest
    · have untouched : rest.map (fun y => if y.key = e.key then { y with cost } else y) = rest := by
        conv_rhs => rw [← List.map_id rest]
        apply List.map_congr_left
        intro y inside
        have other : y.key ≠ e.key := fun same => nodup.1 (List.mem_map.mpr ⟨y, inside, same⟩)
        simp [other]
      simp only [List.map_cons, untouched, costOf_cons, if_true]
      omega
    · have other : x.key ≠ e.key := fun same => nodup.1 (same ▸ List.mem_map_of_mem inRest)
      simp only [List.map_cons, if_neg other, costOf_cons, ih nodup.2 inRest]
      omega

/-- A positive cost written into the entry of a key keeps a segment well formed. -/
theorem WellFormed.setCost (wf : l.WellFormed listType) (key : K) {cost : ℤ} (positive : 0 < cost) :
    (l.setCost key cost).WellFormed listType where
  typed := wf.typed
  bounded := wf.bounded
  room := wf.room
  count := by
    show l.count = ((l.entries.map fun x => if x.key = key then { x with cost } else x).length : ℤ)
    rw [List.length_map, wf.count]
  marked := by
    intro x inside
    obtain ⟨y, mem, rfl⟩ := List.mem_map.mp inside
    by_cases same : y.key = key <;> simp [same, wf.marked y mem]
  positive := by
    intro x inside
    obtain ⟨y, mem, rfl⟩ := List.mem_map.mp inside
    by_cases same : y.key = key <;> simp [same, positive, wf.positive y mem]

/-- A cost written into an entry the segment holds moves its drift by the old cost less
the new: `len` still counts the old one. -/
theorem drift_setCost (nodup : (l.entries.map Entry.key).Nodup) {e : Entry K} (mem : e ∈ l.entries)
    (cost : ℤ) : (l.setCost e.key cost).drift = l.drift + (e.cost - cost) := by
  show l.len - costOf (l.entries.map fun x => if x.key = e.key then { x with cost } else x) = _
  rw [costOf_setCost nodup mem, drift]
  omega

end Keyed

end Segment

end EntryList

/-- Keys that, with others, are a permutation of distinct keys are distinct. -/
theorem nodup_of_perm_append {as bs cs : List K} (perm : (as ++ bs).Perm cs) (nodup : cs.Nodup) :
    as.Nodup :=
  (perm.nodup_iff.mpr nodup).sublist (List.sublist_append_left as bs)

namespace Slru

/-- A cache whose segments are well formed with their marks, whose probation capacity is
its size, and which holds each key once. -/
structure WellFormed (s : Slru K) : Prop where
  probation : s.probation.WellFormed listProbation
  «protected» : s.«protected».WellFormed listProtected
  capacity : s.probation.capacity = s.maxsize
  nodup : s.keys.Nodup

/-- The drifts of probation and protected. -/
def drift (s : Slru K) : ℤ × ℤ :=
  (s.probation.drift, s.«protected».drift)

/-- The cache is within its size by its own count, `probation.Len() + protected.Len()`,
or holds nothing. -/
def Fits (s : Slru K) : Prop :=
  s.total ≤ s.maxsize ∨ s.entries = []

/-- A change of `len` in the segment a mark names, as a change of the two drifts. -/
def shift (listType : UInt8) (delta : ℤ) : ℤ × ℤ :=
  if listType = listProbation then (delta, 0) else if listType = listProtected then (0, delta) else 0

section Cache

variable {s : Slru K}

theorem keys_eq (s : Slru K) :
    s.keys = s.probation.entries.map Entry.key ++ s.«protected».entries.map Entry.key := by
  simp [keys, entries]

theorem drift_eq_zero_iff : s.drift = 0 ↔ s.probation.drift = 0 ∧ s.«protected».drift = 0 := by
  simp [drift, Prod.ext_iff]

/-- With both drifts zero, `len` counts the costs. -/
theorem total_eq_of_drift (balanced : s.drift = 0) : s.total = costOf s.entries := by
  obtain ⟨probation, prot⟩ := drift_eq_zero_iff.mp balanced
  unfold EntryList.drift at probation prot
  rw [total, entries, costOf_append]
  omega

/-- With both drifts zero, a cache that fits is within its size: an empty one counts
nothing. -/
theorem total_le_of_fits (balanced : s.drift = 0) (fits : s.Fits) : s.total ≤ s.maxsize := by
  rcases fits with within | empty
  · exact within
  · rw [total_eq_of_drift balanced, empty, costOf_nil]
    exact Int.natCast_nonneg _

/-- With its drift zero, a segment of a well-formed cache counts a nonnegative cost. -/
theorem WellFormed.protected_nonneg (wf : s.WellFormed) (balanced : s.drift = 0) : 0 ≤ s.«protected».len := by
  have counted := (drift_eq_zero_iff.mp balanced).2
  have nonneg := costOf_nonneg wf.«protected».positive
  unfold EntryList.drift at counted
  omega

@[simp] theorem maxsize_insert (e : Entry K) : (s.insert e).1.maxsize = s.maxsize := rfl

theorem insert_snd (e : Entry K) :
    (s.insert e).2 = if (s.maxsize : ℤ) ≤ s.total then s.probation.popTail.2 else none := by
  unfold Slru.insert
  split_ifs <;> rfl

/-- The new entry is in the cache after `insert`, at probation's front. -/
theorem mem_keys_insert (wf : s.WellFormed) (e : Entry K) : e.key ∈ (s.insert e).1.keys := by
  obtain ⟨popped, poppedEq⟩ : ∃ popped : EntryList K × Option (Entry K),
      popped = if (s.maxsize : ℤ) ≤ s.total then s.probation.popTail else (s.probation, none) := ⟨_, rfl⟩
  have bounded : popped.1.bounded = true := by
    rw [poppedEq]
    split_ifs
    · exact EntryList.bounded_popTail wf.probation.bounded
    · exact wf.probation.bounded
  have inserted : (s.insert e).1 = { s with probation := (popped.1.pushFront e).1 } := by
    rw [poppedEq]
    rfl
  rw [inserted, keys_eq, List.mem_append]
  left
  by_cases full : (popped.1.capacity : ℤ) ≤ popped.1.len
  · rw [EntryList.pushFront_of_le bounded full]
    simp
  · rw [EntryList.pushFront_of_lt bounded (not_le.mp full)]
    simp

/-- `insert` into a well-formed cache: probation's tail leaves when the cache is full,
and the new entry enters probation's front, whose `PushFront` may pop one more entry,
`dropped`, which `insert` loses. The keys after, with those handed back and dropped, are
the keys before with the new one, and the drifts stay. Nothing is dropped while both
drifts are zero and the cache fits: what is left of probation is then below its
capacity. -/
theorem WellFormed.insert (wf : s.WellFormed) {e : Entry K} (fresh : e.key ∉ s.keys) (positive : 0 < e.cost) :
    ∃ dropped : Option (Entry K),
      (s.insert e).1.WellFormed ∧
      ((s.insert e).1.keys ++ ((s.insert e).2.toList ++ dropped.toList).map Entry.key).Perm (e.key :: s.keys) ∧
      (s.insert e).1.drift = s.drift ∧
      (s.drift = 0 → s.Fits → dropped = none) := by
  -- what is left of probation before the new entry is linked
  obtain ⟨popped, poppedEq⟩ : ∃ popped : EntryList K × Option (Entry K),
      popped = if (s.maxsize : ℤ) ≤ s.total then s.probation.popTail else (s.probation, none) := ⟨_, rfl⟩
  have inserted : s.insert e = ({ s with probation := (popped.1.pushFront e).1 }, popped.2) := by
    rw [poppedEq]
    rfl
  obtain ⟨poppedWf, poppedKeys, poppedCapacity, poppedDrift⟩ :
      popped.1.WellFormed listProbation ∧
        popped.1.entries.map Entry.key ++ popped.2.toList.map Entry.key = s.probation.entries.map Entry.key ∧
        popped.1.capacity = s.maxsize ∧ popped.1.drift = s.probation.drift := by
    rw [poppedEq, ← wf.capacity]
    split_ifs
    · exact ⟨wf.probation.popTail, EntryList.keys_popTail _, EntryList.capacity_popTail _,
        EntryList.drift_popTail wf.probation.bounded⟩
    · exact ⟨wf.probation, by simp, rfl, rfl⟩
  have pushedKeys := EntryList.keys_pushFront popped.1 poppedWf.bounded e
  -- the keys after, with the popped ones, are the keys before with the new one
  have keys : ((s.insert e).1.keys ++ ((s.insert e).2.toList ++ (popped.1.pushFront e).2.toList).map Entry.key).Perm
      (e.key :: s.keys) := by
    rw [inserted, keys_eq, keys_eq, List.map_append]
    dsimp only
    have reorder := (pushedKeys.append_right (popped.2.toList.map Entry.key)).append_right
      (s.«protected».entries.map Entry.key)
    rw [List.cons_append, List.cons_append, poppedKeys] at reorder
    refine List.Perm.trans ?_ reorder
    have swap : (s.«protected».entries.map Entry.key ++
        (popped.2.toList.map Entry.key ++ (popped.1.pushFront e).2.toList.map Entry.key)).Perm
        ((popped.1.pushFront e).2.toList.map Entry.key ++ popped.2.toList.map Entry.key ++
          s.«protected».entries.map Entry.key) :=
      List.perm_append_comm.trans (List.Perm.append_right _ List.perm_append_comm)
    simpa only [List.append_assoc] using List.Perm.append_left ((popped.1.pushFront e).1.entries.map Entry.key) swap
  refine ⟨(popped.1.pushFront e).2, ⟨?_, ?_, ?_, nodup_of_perm_append keys (List.nodup_cons.mpr ⟨fresh, wf.nodup⟩)⟩,
    keys, ?_, ?_⟩
  · rw [inserted]
    exact poppedWf.pushFront positive
  · rw [inserted]
    exact wf.«protected»
  · rw [inserted]
    exact (EntryList.capacity_pushFront poppedWf.bounded e).trans poppedCapacity
  · rw [inserted]
    simp only [drift, EntryList.drift_pushFront poppedWf.bounded, poppedDrift]
  · intro balanced fits
    have within := total_le_of_fits balanced fits
    have probationCounted := (drift_eq_zero_iff.mp balanced).1
    have protectedNonneg := wf.protected_nonneg balanced
    unfold EntryList.drift at probationCounted
    unfold total at within
    apply EntryList.pushFront_snd_of_lt poppedWf.bounded
    rw [poppedCapacity]
    -- what is left of probation is below the size: a full cache has given up its tail
    rw [poppedEq]
    split_ifs with full
    · cases last : s.probation.entries.getLast? with
      | none =>
        have empty := List.getLast?_eq_none_iff.mp last
        have room := wf.probation.room
        rw [wf.capacity] at room
        rw [EntryList.popTail_of_nil empty]
        rw [empty, costOf_nil] at probationCounted
        dsimp only
        omega
      | some x =>
        have cost := wf.probation.positive x (List.mem_of_getLast? last)
        rw [EntryList.popTail_of_getLast last]
        simp only [EntryList.unlink, wf.probation.bounded, if_true]
        omega
    · unfold total at full
      dsimp only
      omega

/-- The segment a mark names, as `popTailOf` picks it: probation for its mark, protected
for any other. -/
def segment (s : Slru K) (listType : UInt8) : EntryList K :=
  if listType = listProbation then s.probation else s.«protected»

theorem popTailOf_segment (s : Slru K) (listType : UInt8) :
    (s.popTailOf listType).1.segment listType = (s.segment listType).popTail.1 ∧
      (s.popTailOf listType).2 = (s.segment listType).popTail.2 := by
  unfold Slru.popTailOf segment
  split_ifs <;> exact ⟨rfl, rfl⟩

/-- `PopTail` of either segment keeps the cache well formed and the drifts, and hands
back a key and its cost. -/
theorem WellFormed.popTailOf (wf : s.WellFormed) (listType : UInt8) :
    (s.popTailOf listType).1.WellFormed ∧
      ((s.popTailOf listType).1.keys ++ (s.popTailOf listType).2.toList.map Entry.key).Perm s.keys ∧
      (s.popTailOf listType).1.total + costOf (s.popTailOf listType).2.toList = s.total ∧
      (s.popTailOf listType).1.drift = s.drift ∧
      (s.popTailOf listType).1.maxsize = s.maxsize := by
  unfold Slru.popTailOf
  split_ifs
  · have keys : (({ s with probation := s.probation.popTail.1 } : Slru K).keys ++
        s.probation.popTail.2.toList.map Entry.key).Perm s.keys := by
      rw [keys_eq, keys_eq, List.append_assoc]
      refine (List.Perm.append_left _ List.perm_append_comm).trans ?_
      rw [← List.append_assoc, EntryList.keys_popTail]
    refine ⟨⟨wf.probation.popTail, wf.«protected», ?_, nodup_of_perm_append keys wf.nodup⟩, keys, ?_, ?_, rfl⟩
    · rw [← wf.capacity]
      exact EntryList.capacity_popTail _
    · have popped := EntryList.len_popTail wf.probation.bounded
      unfold total
      dsimp only
      omega
    · simp only [drift, EntryList.drift_popTail wf.probation.bounded]
  · have keys : (({ s with «protected» := s.«protected».popTail.1 } : Slru K).keys ++
        s.«protected».popTail.2.toList.map Entry.key).Perm s.keys := by
      rw [keys_eq, keys_eq, List.append_assoc, EntryList.keys_popTail]
    refine ⟨⟨wf.probation, wf.«protected».popTail, wf.capacity, nodup_of_perm_append keys wf.nodup⟩, keys,
      ?_, ?_, rfl⟩
    · have popped := EntryList.len_popTail wf.«protected».bounded
      unfold total
      dsimp only
      omega
    · simp only [drift, EntryList.drift_popTail wf.«protected».bounded]

/-- A loop of `EvictEntries` keeps the cache well formed and the drifts, and what it
evicts, with what remains, is what was there. -/
theorem WellFormed.evictLoop (wf : s.WellFormed) (listType : UInt8) (fuel : ℕ) :
    (evictLoop listType fuel s).1.WellFormed ∧
      ((evictLoop listType fuel s).1.keys ++ (evictLoop listType fuel s).2.map Entry.key).Perm s.keys ∧
      (evictLoop listType fuel s).1.drift = s.drift ∧
      (evictLoop listType fuel s).1.maxsize = s.maxsize := by
  induction fuel generalizing s with
  | zero => simp [Slru.evictLoop, wf]
  | succ fuel ih =>
    by_cases excess : (s.maxsize : ℤ) < s.total
    · obtain ⟨poppedWf, poppedKeys, -, poppedDrift, poppedMax⟩ := wf.popTailOf listType
      rcases popped : s.popTailOf listType with ⟨rest, _ | e⟩
      · simp only [Slru.evictLoop, if_pos excess, popped]
        simp [wf]
      · simp only [popped] at poppedWf poppedKeys poppedDrift poppedMax
        simp only [Option.toList_some, List.map_cons, List.map_nil] at poppedKeys
        obtain ⟨restWf, restKeys, restDrift, restMax⟩ := ih poppedWf
        simp only [Slru.evictLoop, if_pos excess, popped]
        refine ⟨restWf, ?_, restDrift.trans poppedDrift, restMax.trans poppedMax⟩
        -- the key popped now goes last among the keys handed back
        rw [List.map_cons]
        refine List.perm_middle.trans ?_
        refine (List.perm_append_singleton _ _).symm.trans ?_
        exact (List.Perm.append_right _ restKeys).trans poppedKeys
    · simp [Slru.evictLoop, if_neg excess, wf]

/-- A loop of `EvictEntries` with fuel for every entry of its segment stops with the
cache within its size or the segment empty. -/
theorem WellFormed.evictLoop_fits (wf : s.WellFormed) (listType : UInt8) {fuel : ℕ}
    (enough : (s.segment listType).entries.length ≤ fuel) :
    (Slru.evictLoop listType fuel s).1.total ≤ s.maxsize ∨
      ((Slru.evictLoop listType fuel s).1.segment listType).entries = [] := by
  induction fuel generalizing s with
  | zero =>
    right
    simpa [Slru.evictLoop] using enough
  | succ fuel ih =>
    by_cases excess : (s.maxsize : ℤ) < s.total
    · obtain ⟨poppedWf, -, -, -, poppedMax⟩ := wf.popTailOf listType
      obtain ⟨segmentEq, poppedEq⟩ := popTailOf_segment s listType
      rcases popped : s.popTailOf listType with ⟨rest, _ | e⟩
      · right
        rw [popped] at poppedEq
        simp only [Slru.evictLoop, if_pos excess, popped]
        exact (EntryList.popTail_snd_eq_none_iff _).mp poppedEq.symm
      · simp only [popped] at poppedWf poppedMax segmentEq poppedEq
        have shorter := EntryList.length_popTail poppedEq.symm
        rw [← segmentEq] at shorter
        simp only [Slru.evictLoop, if_pos excess, popped]
        rw [← poppedMax]
        exact ih poppedWf (by omega)
    · left
      simp only [Slru.evictLoop, if_neg excess]
      omega

theorem evictLoop_of_fits (listType : UInt8) (fuel : ℕ) (fits : s.total ≤ s.maxsize) :
    evictLoop listType fuel s = (s, []) := by
  cases fuel with
  | zero => rfl
  | succ fuel => simp only [Slru.evictLoop, if_neg (not_lt.mpr fits)]

/-- The protected loop of `EvictEntries` leaves probation as it was. -/
theorem probation_evictLoop_protected (fuel : ℕ) :
    (evictLoop listProtected fuel s).1.probation = s.probation := by
  induction fuel generalizing s with
  | zero => rfl
  | succ fuel ih =>
    have other : listProtected ≠ listProbation := by decide
    by_cases excess : (s.maxsize : ℤ) < s.total
    · rcases popped : s.popTailOf listProtected with ⟨rest, _ | e⟩
      · simp only [Slru.evictLoop, if_pos excess, popped]
      · have kept : rest.probation = s.probation := by
          have := congrArg (fun r => r.1.probation) popped
          simpa [Slru.popTailOf, if_neg other] using this.symm
        simp only [Slru.evictLoop, if_pos excess, popped]
        rw [ih, kept]
    · simp only [Slru.evictLoop, if_neg excess]

/-- `updateCost` moves `len` of the segment the entry's mark names, and so its drift. -/
theorem drift_updateCost (s : Slru K) (e : Entry K) (delta : ℤ) :
    (s.updateCost e delta).drift = s.drift + shift e.list delta := by
  unfold Slru.updateCost shift
  split_ifs <;> simp [drift]

theorem WellFormed.updateCost (wf : s.WellFormed) (e : Entry K) (delta : ℤ) :
    (s.updateCost e delta).WellFormed ∧ (s.updateCost e delta).keys = s.keys ∧
      (s.updateCost e delta).maxsize = s.maxsize := by
  unfold Slru.updateCost
  split_ifs
  · exact ⟨⟨wf.probation.addLen delta, wf.«protected», wf.capacity, wf.nodup⟩, rfl, rfl⟩
  · exact ⟨⟨wf.probation, wf.«protected».addLen delta, wf.capacity, wf.nodup⟩, rfl, rfl⟩
  · exact ⟨wf, rfl, rfl⟩

variable [DecidableEq K]

@[simp] theorem total_setCost (key : K) (cost : ℤ) : (s.setCost key cost).total = s.total := rfl

@[simp] theorem maxsize_setCost (key : K) (cost : ℤ) : (s.setCost key cost).maxsize = s.maxsize := rfl

/-- What `lookup` finds: the entry of the key, in the segment its mark names. -/
theorem WellFormed.lookup_some (wf : s.WellFormed) {key : K} {e : Entry K} (found : s.lookup key = some e) :
    e.key = key ∧ (e ∈ s.probation.entries ∧ e.list = listProbation ∨
      e ∈ s.«protected».entries ∧ e.list = listProtected) := by
  have mem := List.mem_of_find?_eq_some found
  have same : e.key = key := by simpa using List.find?_some found
  refine ⟨same, ?_⟩
  rcases List.mem_append.mp mem with inProbation | inProtected
  · exact Or.inl ⟨inProbation, wf.probation.marked e inProbation⟩
  · exact Or.inr ⟨inProtected, wf.«protected».marked e inProtected⟩

theorem lookup_eq_none_iff {key : K} : s.lookup key = none ↔ key ∉ s.keys := by
  simp [lookup, keys]

/-- A cache in which a lookup finds an entry is not empty. -/
theorem entries_ne_nil_of_lookup {key : K} {e : Entry K} (found : s.lookup key = some e) : s.entries ≠ [] := by
  intro empty
  rw [lookup, empty] at found
  cases found

/-- `access` of an entry the cache holds: a probation entry moves to the protected
front, and the protected tail it may push out falls back to the probation front, whose
`PushFront` may pop one more entry, `dropped`, which `access` loses; a protected entry
moves to the front. The keys after, with the dropped one, are the keys before; the
total does not grow, and the drifts stay. Nothing is dropped while both drifts are zero
and the cache fits. -/
theorem WellFormed.access (wf : s.WellFormed) {key : K} {e : Entry K} (found : s.lookup key = some e) :
    ∃ dropped : Option (Entry K),
      (s.access e).WellFormed ∧ ((s.access e).keys ++ dropped.toList.map Entry.key).Perm s.keys ∧
      (s.access e).total ≤ s.total ∧ (s.access e).drift = s.drift ∧
      (s.access e).maxsize = s.maxsize ∧ (s.drift = 0 → s.Fits → dropped = none) := by
  obtain ⟨-, ⟨mem, marked⟩ | ⟨mem, marked⟩⟩ := wf.lookup_some found
  · -- a probation entry
    have cost := wf.probation.positive e mem
    have removedWf := wf.probation.remove mem
    have removedKeys := EntryList.keys_remove (l := s.probation) mem
    have removedLen := EntryList.len_remove wf.probation.bounded e
    have removedDrift := EntryList.drift_remove wf.probation.bounded mem
    have pushedWf := wf.«protected».pushFront cost
    have pushedKeys := EntryList.keys_pushFront s.«protected» wf.«protected».bounded e
    have pushedLen := EntryList.len_pushFront wf.«protected».bounded e
    have pushedDrift := EntryList.drift_pushFront wf.«protected».bounded e
    have capacity : (s.probation.remove e).capacity = s.maxsize := wf.capacity
    -- while the drifts are zero, what is left of probation is below its capacity
    have room : s.drift = 0 → s.Fits → (s.probation.remove e).len < (s.probation.remove e).capacity := by
      intro balanced fits
      have within := total_le_of_fits balanced fits
      have protectedNonneg := wf.protected_nonneg balanced
      rw [removedLen, capacity]
      unfold total at within
      omega
    unfold Slru.access
    rw [if_pos marked]
    dsimp only
    cases evicted : (s.«protected».pushFront e).2 with
    | none =>
      rw [evicted, Option.toList_none, List.map_nil, List.append_nil] at pushedKeys
      rw [evicted, Option.toList_none, costOf_nil, add_zero] at pushedLen
      have keys : (({ s with
          probation := s.probation.remove e
          «protected» := (s.«protected».pushFront e).1 } : Slru K)).keys.Perm s.keys := by
        rw [keys_eq, keys_eq]
        refine (List.Perm.append_left _ pushedKeys).trans ?_
        refine List.perm_middle.trans ?_
        rw [← List.cons_append]
        exact List.Perm.append_right _ removedKeys
      refine ⟨none, ⟨removedWf, pushedWf, capacity, (keys.nodup_iff).mpr wf.nodup⟩, by simpa using keys, ?_, ?_,
        rfl, fun _ _ => rfl⟩
      · unfold total
        dsimp only
        omega
      · simp only [drift, removedDrift, pushedDrift]
    | some demoted =>
      have demotedCost := EntryList.cost_pos_of_pushFront wf.«protected» evicted
      rw [evicted, Option.toList_some, List.map_cons, List.map_nil] at pushedKeys
      rw [evicted, Option.toList_some, costOf_cons, costOf_nil, add_zero] at pushedLen
      have fallenKeys := EntryList.keys_pushFront (s.probation.remove e) removedWf.bounded demoted
      have fallenLen := EntryList.len_pushFront removedWf.bounded demoted
      -- the demoted key moves from behind the protected keys to the front of probation
      have keys : (({ s with
          probation := ((s.probation.remove e).pushFront demoted).1
          «protected» := (s.«protected».pushFront e).1 } : Slru K).keys ++
            ((s.probation.remove e).pushFront demoted).2.toList.map Entry.key).Perm s.keys := by
        rw [keys_eq, keys_eq]
        have moved := ((fallenKeys.append_right ((s.«protected».pushFront e).1.entries.map Entry.key)))
        refine List.Perm.trans (List.perm_iff_count.mpr fun a => ?_) (moved.trans ?_)
        · simp only [List.count_append]
          omega
        rw [List.cons_append]
        refine List.perm_middle.symm.trans ?_
        refine (List.Perm.append_left _ (List.perm_append_singleton _ _).symm).trans ?_
        refine (List.Perm.append_left _ pushedKeys).trans ?_
        refine List.perm_middle.trans ?_
        rw [← List.cons_append]
        exact List.Perm.append_right _ removedKeys
      refine ⟨((s.probation.remove e).pushFront demoted).2,
        ⟨removedWf.pushFront demotedCost, pushedWf, ?_, nodup_of_perm_append keys wf.nodup⟩, keys, ?_, ?_, rfl,
        fun balanced fits => EntryList.pushFront_snd_of_lt removedWf.bounded (room balanced fits) demoted⟩
      · rw [EntryList.capacity_pushFront removedWf.bounded, capacity]
      · have droppedNonneg := EntryList.costOf_pushFront_nonneg removedWf demoted
        unfold total
        dsimp only
        omega
      · simp only [drift, EntryList.drift_pushFront removedWf.bounded, removedDrift, pushedDrift]
  · -- a protected entry
    have other : e.list ≠ listProbation := by rw [marked]; decide
    unfold Slru.access
    rw [if_neg other, if_pos marked]
    have keys : (({ s with «protected» := s.«protected».moveToFront e } : Slru K)).keys.Perm s.keys := by
      rw [keys_eq, keys_eq]
      exact List.Perm.append_left _ (EntryList.keys_moveToFront mem)
    refine ⟨none, ⟨wf.probation, wf.«protected».moveToFront mem, wf.capacity, (keys.nodup_iff).mpr wf.nodup⟩,
      by simpa using keys, le_of_eq rfl, ?_, rfl, fun _ _ => rfl⟩
    simp only [drift, EntryList.drift_moveToFront mem]

/-- `remove` of an entry the cache holds takes exactly its key out, and its cost off the
total, and keeps the drifts. -/
theorem WellFormed.remove (wf : s.WellFormed) {key : K} {e : Entry K} (found : s.lookup key = some e) :
    (s.remove e).WellFormed ∧ (e.key :: (s.remove e).keys).Perm s.keys ∧
      (s.remove e).total = s.total - e.cost ∧ (s.remove e).drift = s.drift ∧
      (s.remove e).maxsize = s.maxsize := by
  obtain ⟨-, ⟨mem, marked⟩ | ⟨mem, marked⟩⟩ := wf.lookup_some found
  · unfold Slru.remove
    rw [if_pos marked]
    have keys : (e.key :: ({ s with probation := s.probation.remove e } : Slru K).keys).Perm s.keys := by
      rw [keys_eq, keys_eq, ← List.cons_append]
      exact List.Perm.append_right _ (EntryList.keys_remove mem)
    refine ⟨⟨wf.probation.remove mem, wf.«protected», wf.capacity, ((keys.nodup_iff).mpr wf.nodup).of_cons⟩,
      keys, ?_, ?_, rfl⟩
    · unfold total
      dsimp only
      rw [EntryList.len_remove wf.probation.bounded]
      omega
    · simp only [drift, EntryList.drift_remove wf.probation.bounded mem]
  · have other : e.list ≠ listProbation := by rw [marked]; decide
    unfold Slru.remove
    rw [if_neg other, if_pos marked]
    have keys : (e.key :: ({ s with «protected» := s.«protected».remove e } : Slru K).keys).Perm s.keys := by
      rw [keys_eq, keys_eq]
      refine List.perm_middle.symm.trans ?_
      exact List.Perm.append_left _ (EntryList.keys_remove mem)
    refine ⟨⟨wf.probation, wf.«protected».remove mem, wf.capacity, ((keys.nodup_iff).mpr wf.nodup).of_cons⟩,
      keys, ?_, ?_, rfl⟩
    · unfold total
      dsimp only
      rw [EntryList.len_remove wf.«protected».bounded]
      omega
    · simp only [drift, EntryList.drift_remove wf.«protected».bounded mem]

theorem entries_setCost (s : Slru K) (key : K) (cost : ℤ) :
    (s.setCost key cost).entries = s.entries.map fun x => if x.key = key then { x with cost } else x := by
  simp [Slru.setCost, EntryList.setCost, entries]

@[simp] theorem keys_setCost (key : K) (cost : ℤ) : (s.setCost key cost).keys = s.keys := by
  simp [keys_eq, Slru.setCost]

/-- The store's write of a cost into a key the cache does not hold changes nothing. -/
theorem setCost_of_not_mem {key : K} (absent : key ∉ s.keys) (cost : ℤ) : s.setCost key cost = s := by
  rw [keys_eq, List.mem_append, not_or] at absent
  simp only [Slru.setCost, EntryList.setCost_of_not_mem absent.1, EntryList.setCost_of_not_mem absent.2]

/-- A positive cost written into the entry of a key keeps the cache well formed. -/
theorem WellFormed.setCost (wf : s.WellFormed) (key : K) {cost : ℤ} (positive : 0 < cost) :
    (s.setCost key cost).WellFormed :=
  ⟨wf.probation.setCost key positive, wf.«protected».setCost key positive, wf.capacity,
    (keys_setCost (s := s) key cost).symm ▸ wf.nodup⟩

/-- A cost written into an entry the cache holds moves the drift of its segment by the
old cost less the new. -/
theorem WellFormed.drift_setCost (wf : s.WellFormed) {key : K} {e : Entry K} (found : s.lookup key = some e)
    (cost : ℤ) : (s.setCost key cost).drift = s.drift + shift e.list (e.cost - cost) := by
  obtain ⟨same, ⟨mem, marked⟩ | ⟨mem, marked⟩⟩ := wf.lookup_some found
  all_goals subst same
  all_goals have split := wf.nodup
  all_goals rw [keys_eq, List.nodup_append] at split
  · -- the key sits in probation, so protected does not hold it
    have absent : e.key ∉ s.«protected».entries.map Entry.key :=
      fun inside => split.2.2 _ (List.mem_map_of_mem mem) _ inside rfl
    simp only [Slru.setCost, EntryList.setCost_of_not_mem absent, drift, shift, marked, if_true,
      EntryList.drift_setCost split.1 mem]
    simp
  · have absent : e.key ∉ s.probation.entries.map Entry.key :=
      fun inside => split.2.2 _ inside _ (List.mem_map_of_mem mem) rfl
    have other : listProtected ≠ listProbation := by decide
    simp only [Slru.setCost, EntryList.setCost_of_not_mem absent, drift, shift, marked, if_neg other, if_true,
      EntryList.drift_setCost split.2.1 mem]
    simp

end Cache

end Slru

end Vitess.Theine
