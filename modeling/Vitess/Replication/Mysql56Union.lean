import Vitess.Replication.Mysql56GtidSet
import Vitess.Data.KeyedFold

/-!
# Growing a MySQL 5.6 GTID set

`ContainsGTID`, `AddGTID` and `Union` of `go/mysql/replication/mysql56_gtid_set.go`,
with `popInterval`, which feeds `Union` the intervals of two sorted lists in order
of start.

Both functions build a new map and never write to their arguments' slices (the
range variable `iv` of `AddGTID` is a copy), so the model, which has no sharing,
loses nothing. A set is `Canonical` when each list is sorted, disjoint and never
touching, with positive starts: what both functions are meant to produce.

The bounds are Go `int64`s, modelled as integers. The sums that could leave
`int64` are `end+1` of an interval that ends at `math.MaxInt64` and `start-1` of
one that starts at `math.MinInt64`. In `Union` such an end is never reached: every
later interval ends within it, and the loop skips it before forming `end+1`. In
`AddGTID`, on a set with positive starts, `start-1` stays in range, and a wrapped
`end+1` is negative and so equals no positive sequence number and no positive
start, exactly as the unbounded sum exceeds every `int64`.

`Union`'s nil checks (`set == nil`, `other == nil`) and the type assertions on
the other set and on the GTID pick out inputs on which the general path gives the
same map, or that are not MySQL 5.6 values; the model takes MySQL 5.6 values.
-/

namespace Vitess.Replication

open Vitess.IntervalList

/-- `Mysql56GTID`: a server and a transaction sequence number. -/
structure Mysql56GTID where
  server : SID
  sequence : ℤ
  deriving DecidableEq

/-- Each list sorted, disjoint and never touching, with positive starts. -/
def Mysql56GTIDSet.Canonical (set : Mysql56GTIDSet) : Prop :=
  ∀ entry ∈ set.entries, IntervalList.Canonical entry.2 ∧ ∀ iv ∈ entry.2, 1 ≤ iv.start

/-- Each list sorted by start, of nonempty intervals. -/
def Mysql56GTIDSet.SortedByStart (set : Mysql56GTIDSet) : Prop :=
  ∀ entry ∈ set.entries,
    entry.2.Pairwise (fun a b => a.start ≤ b.start) ∧ ∀ iv ∈ entry.2, iv.Nonempty

instance (set : Mysql56GTIDSet) : Decidable set.Canonical :=
  inferInstanceAs (Decidable (∀ entry ∈ set.entries, _))

instance (set : Mysql56GTIDSet) : Decidable set.SortedByStart :=
  inferInstanceAs (Decidable (∀ entry ∈ set.entries, _))

theorem Mysql56GTIDSet.Canonical.lookup {set : Mysql56GTIDSet} (canonical : set.Canonical)
    {sid : SID} {intervals : List Interval} (found : set.lookup sid = some intervals) :
    IntervalList.Canonical intervals ∧ ∀ iv ∈ intervals, 1 ≤ iv.start :=
  canonical ⟨sid, intervals⟩ (AList.mem_lookup_iff.mp found)

theorem Mysql56GTIDSet.Canonical.getD {set : Mysql56GTIDSet} (canonical : set.Canonical)
    (sid : SID) :
    IntervalList.Canonical ((set.lookup sid).getD []) ∧ ∀ iv ∈ (set.lookup sid).getD [], 1 ≤ iv.start := by
  cases found : set.lookup sid with
  | none => simp [IntervalList.Canonical]
  | some intervals => exact canonical.lookup found

theorem Mysql56GTIDSet.canonical_of_lookup {set : Mysql56GTIDSet}
    (each : ∀ sid intervals, set.lookup sid = some intervals →
      IntervalList.Canonical intervals ∧ ∀ iv ∈ intervals, 1 ≤ iv.start) : set.Canonical :=
  fun entry member => each entry.1 entry.2 (AList.mem_lookup_iff.mpr member)

theorem Mysql56GTIDSet.SortedByStart.lookup {set : Mysql56GTIDSet} (sorted : set.SortedByStart)
    {sid : SID} {intervals : List Interval} (found : set.lookup sid = some intervals) :
    intervals.Pairwise (fun a b => a.start ≤ b.start) ∧ ∀ iv ∈ intervals, iv.Nonempty :=
  sorted ⟨sid, intervals⟩ (AList.mem_lookup_iff.mp found)

theorem Mysql56GTIDSet.Canonical.sortedByStart {set : Mysql56GTIDSet} (canonical : set.Canonical) :
    set.SortedByStart :=
  fun entry member => ⟨(canonical entry member).1.sorted, (canonical entry member).1.1⟩

/-! ### `ContainsGTID` -/

/-- The loop of `ContainsGTID` over the intervals of the GTID's server, which it
takes to be sorted: it stops at the first interval that starts past the sequence
number. -/
def containsSequence (sequence : ℤ) : List Interval → Bool
  | [] => false
  | iv :: rest =>
    if iv.start > sequence then false
    else if sequence ≤ iv.stop then true
    else containsSequence sequence rest

/-- `Mysql56GTIDSet.ContainsGTID`. -/
def Mysql56GTIDSet.containsGTID (set : Mysql56GTIDSet) (gtid : Mysql56GTID) : Bool :=
  containsSequence gtid.sequence ((set.lookup gtid.server).getD [])

/-! ### `AddGTID` -/

/-- "Check if this interval can be merged with the previous one": `iv` appended
to `newIntervals`, which is kept last first, or the last interval extended over
it when `iv` starts right after it. -/
def appendMerging : List Interval → Interval → List Interval
  | last :: earlier, iv =>
    if iv.start = last.stop + 1 then { last with stop := iv.stop } :: earlier
    else iv :: last :: earlier
  | [], iv => [iv]

/-- One turn of the loop of `AddGTID` over the intervals of the GTID's server,
with the flag `added`. Until the GTID is placed, the `switch` extends `iv` down or
up to it, or puts it as an interval of its own before `iv`. -/
def addStep (sequence : ℤ) : List Interval × Bool → Interval → List Interval × Bool
  | (newIntervals, true), iv => (appendMerging newIntervals iv, true)
  | (newIntervals, false), iv =>
    if sequence = iv.start - 1 then (appendMerging newIntervals { iv with start := sequence }, true)
    else if sequence = iv.stop + 1 then (appendMerging newIntervals { iv with stop := sequence }, true)
    else if sequence < iv.start - 1 then
      (appendMerging (⟨sequence, sequence⟩ :: newIntervals) iv, true)
    else (appendMerging newIntervals iv, false)

/-- One turn of the loop of `AddGTID` over the map: the GTID's server gets its
intervals through `addStep`, every other SID a copy of its own. -/
def addEntry (gtid : Mysql56GTID) (state : Mysql56GTIDSet × Bool)
    (entry : Σ _ : SID, List Interval) : Mysql56GTIDSet × Bool :=
  if entry.1 = gtid.server then
    let (newIntervals, added) := entry.2.foldl (addStep gtid.sequence) ([], state.2)
    (state.1.insert entry.1 newIntervals.reverse, added)
  else (state.1.insert entry.1 entry.2, state.2)

/-- `Mysql56GTIDSet.AddGTID`: the set itself when it holds the GTID; otherwise a
new map, with the GTID appended as an interval of its own when no interval took
it in. -/
def Mysql56GTIDSet.addGTID (set : Mysql56GTIDSet) (gtid : Mysql56GTID) : Mysql56GTIDSet :=
  if set.containsGTID gtid then set
  else
    let (newSet, added) := set.entries.foldl (addEntry gtid) (∅, false)
    if !added then
      newSet.insert gtid.server ((newSet.lookup gtid.server).getD [] ++ [⟨gtid.sequence, gtid.sequence⟩])
    else newSet

/-! ### `Union` -/

/-- `popInterval`: the first interval of the stack whose first interval starts
earlier (the first stack on a tie), and the two stacks after it; `none` once both
are empty. -/
def popInterval : List Interval → List Interval → Option (Interval × List Interval × List Interval)
  | [], [] => none
  | iv :: s1, [] => some (iv, s1, [])
  | [], iv :: s2 => some (iv, [], s2)
  | iv1 :: s1, iv2 :: s2 =>
    if iv1.start ≤ iv2.start then some (iv1, s1, iv2 :: s2) else some (iv2, iv1 :: s1, s2)

theorem popInterval_length {s1 s2 s1' s2' : List Interval} {next : Interval}
    (popped : popInterval s1 s2 = some (next, s1', s2')) :
    s1'.length + s2'.length < s1.length + s2.length := by
  match s1, s2, popped with
  | iv :: s1, [], popped =>
    cases popped
    simp
  | [], iv :: s2, popped =>
    cases popped
    simp
  | iv1 :: s1, iv2 :: s2, popped =>
    rw [popInterval] at popped
    split at popped <;> cases popped <;> simp

/-- One turn of the loop of `Union` for a SID both sets hold, over the intervals
in order of start; `newIntervals` is kept last first, its head being the active
interval. -/
def unionStep : List Interval → Interval → List Interval
  | [], next => [next]
  | active :: earlier, next =>
    if next.stop ≤ active.stop then active :: earlier
    else if next.start > active.stop + 1 then next :: active :: earlier
    else { active with stop := next.stop } :: earlier

/-- The loop `for popInterval(&nextInterval, &s1, &s2)` of `Union`. -/
def unionIntervals (newIntervals s1 s2 : List Interval) : List Interval :=
  match _popped : popInterval s1 s2 with
  | none => newIntervals.reverse
  | some (next, s1', s2') => unionIntervals (unionStep newIntervals next) s1' s2'
termination_by s1.length + s2.length
decreasing_by exact popInterval_length _popped

/-- What the first loop of `Union` stores for a SID of the other set: its
intervals when we lack the SID, else the union of both lists. -/
def unionEntryIntervals (set : Mysql56GTIDSet) (sid : SID) (otherIntervals : List Interval) :
    List Interval :=
  match set.lookup sid with
  | none => otherIntervals
  | some intervals => unionIntervals [] intervals otherIntervals

/-- One turn of the first loop of `Union`, over the other set. -/
def unionOtherEntry (set newSet : Mysql56GTIDSet) (entry : Σ _ : SID, List Interval) :
    Mysql56GTIDSet :=
  newSet.insert entry.1 (unionEntryIntervals set entry.1 entry.2)

/-- One turn of the second loop of `Union`: a SID of ours the new set lacks is
copied. -/
def unionOwnEntry (newSet : Mysql56GTIDSet) (entry : Σ _ : SID, List Interval) : Mysql56GTIDSet :=
  if (newSet.lookup entry.1).isNone then newSet.insert entry.1 entry.2 else newSet

/-- `Mysql56GTIDSet.Union`. -/
def Mysql56GTIDSet.union (set other : Mysql56GTIDSet) : Mysql56GTIDSet :=
  set.entries.foldl unionOwnEntry (other.entries.foldl (unionOtherEntry set) ∅)

/-! ### The loop of `Union` for one SID -/

/-- The order `popInterval` takes intervals in. -/
def startLe (a b : Interval) : Bool :=
  decide (a.start ≤ b.start)

theorem popInterval_eq_none {s1 s2 : List Interval} (empty : popInterval s1 s2 = none) :
    s1 = [] ∧ s2 = [] := by
  match s1, s2, empty with
  | [], [], _ => exact ⟨rfl, rfl⟩
  | iv1 :: s1, iv2 :: s2, empty =>
    rw [popInterval] at empty
    split at empty <;> cases empty

/-- `popInterval` hands out the intervals of the two stacks in the order of their
merge by start. -/
theorem merge_of_popInterval {s1 s2 s1' s2' : List Interval} {next : Interval}
    (popped : popInterval s1 s2 = some (next, s1', s2')) :
    s1.merge s2 startLe = next :: s1'.merge s2' startLe := by
  match s1, s2, popped with
  | iv :: s1, [], popped =>
    cases popped
    rw [List.merge_right, List.merge_right]
  | [], iv :: s2, popped =>
    cases popped
    rw [List.nil_merge, List.nil_merge]
  | iv1 :: s1, iv2 :: s2, popped =>
    rw [popInterval] at popped
    rw [List.cons_merge_cons]
    by_cases first : iv1.start ≤ iv2.start
    · rw [if_pos first] at popped
      cases popped
      simp [startLe, first]
    · rw [if_neg first] at popped
      cases popped
      simp [startLe, first]

/-- The loop of `Union` is the sweep of `unionStep` over the merge of the two lists. -/
theorem unionIntervals_eq (newIntervals s1 s2 : List Interval) :
    unionIntervals newIntervals s1 s2 = ((s1.merge s2 startLe).foldl unionStep newIntervals).reverse := by
  fun_induction unionIntervals newIntervals s1 s2 with
  | case1 newIntervals s1 s2 empty =>
    obtain ⟨rfl, rfl⟩ := popInterval_eq_none empty
    rw [List.nil_merge, List.foldl_nil]
  | case2 newIntervals s1 s2 next s1' s2' popped ih =>
    rw [ih, merge_of_popInterval popped, List.foldl_cons]

/-- What the sweep keeps: `newIntervals`, last first, is canonical, and every
interval still to come starts at or after its active interval. -/
structure SweepInvariant (newIntervals rest : List Interval) : Prop where
  canonical : IntervalList.Canonical newIntervals.reverse
  activeFirst : ∀ active ∈ newIntervals.head?, ∀ next ∈ rest, active.start ≤ next.start

/-- One turn of the sweep, on an interval that starts at or after the active one:
the list stays canonical and gains exactly the interval's points. -/
theorem unionStep_spec {newIntervals : List Interval} {next : Interval}
    (canonical : IntervalList.Canonical newIntervals.reverse) (nonempty : next.Nonempty)
    (after : ∀ active ∈ newIntervals.head?, active.start ≤ next.start) :
    IntervalList.Canonical (unionStep newIntervals next).reverse ∧
      (∀ active ∈ (unionStep newIntervals next).head?, active.start ≤ next.start) ∧
      ∀ x, Denotes (unionStep newIntervals next) x ↔ Denotes newIntervals x ∨ next.Mem x := by
  match newIntervals, canonical, after with
  | [], _, _ =>
    refine ⟨by simpa [unionStep, IntervalList.Canonical] using nonempty, by simp [unionStep], ?_⟩
    intro x
    simp [unionStep]
  | active :: earlier, canonical, after =>
    have activeBefore : active.start ≤ next.start := after active rfl
    obtain ⟨earlierCanonical, activeNonempty, separated⟩ := canonical_reverse_cons.mp canonical
    unfold Interval.Nonempty at nonempty activeNonempty
    rw [unionStep]
    split
    · -- `next` lies inside the active interval
      rename_i within
      have covers : active.Covers next := ⟨activeBefore, within⟩
      refine ⟨canonical, fun _ same => by cases same; exact activeBefore, fun x => ?_⟩
      exact ⟨.inl, fun point => point.elim id fun inNext => denotes_cons.mpr (.inl (covers.mem inNext))⟩
    · split
      · -- a gap: `next` becomes the active interval
        rename_i past gap
        refine ⟨canonical_reverse_cons.mpr ⟨canonical, nonempty, ?_⟩,
          fun _ same => by cases same; exact le_refl _, fun x => ?_⟩
        · intro before member
          rcases List.mem_cons.mp member with rfl | isEarlier
          · unfold Separated
            omega
          · have := separated before isEarlier
            unfold Separated at this ⊢
            omega
        · simp only [denotes_cons]
          tauto
      · -- the active interval is extended to `next`'s end
        rename_i past touching
        refine ⟨canonical_reverse_cons.mpr ⟨earlierCanonical, ?_, separated⟩,
          fun _ same => by cases same; exact activeBefore, fun x => ?_⟩
        · unfold Interval.Nonempty
          dsimp only
          omega
        · have extended : ({ active with stop := next.stop } : Interval).Mem x ↔
              active.Mem x ∨ next.Mem x := by
            simp only [Interval.Mem]
            omega
          rw [denotes_cons, denotes_cons, extended]
          tauto

/-- The sweep over a list sorted by start keeps its invariant, and the points of
the result are those of the start and of the list. -/
theorem foldl_unionStep :
    ∀ {rest newIntervals : List Interval}, rest.Pairwise (fun a b => a.start ≤ b.start) →
      (∀ iv ∈ rest, iv.Nonempty) → SweepInvariant newIntervals rest →
      IntervalList.Canonical (rest.foldl unionStep newIntervals).reverse ∧
        ∀ x, Denotes (rest.foldl unionStep newIntervals) x ↔ Denotes newIntervals x ∨ Denotes rest x
  | [], newIntervals, _, _, invariant => ⟨invariant.canonical, by simp⟩
  | next :: rest, newIntervals, sorted, nonempty, invariant => by
    obtain ⟨nextBefore, restSorted⟩ := List.pairwise_cons.mp sorted
    obtain ⟨canonical, activeAfter, points⟩ := unionStep_spec invariant.canonical
      (nonempty next List.mem_cons_self)
      (fun active isActive => invariant.activeFirst active isActive next List.mem_cons_self)
    have stepped : SweepInvariant (unionStep newIntervals next) rest :=
      ⟨canonical, fun active isActive later isLater =>
        le_trans (activeAfter active isActive) (nextBefore later isLater)⟩
    obtain ⟨resultCanonical, resultPoints⟩ := foldl_unionStep restSorted
      (fun iv member => nonempty iv (List.mem_cons_of_mem next member)) stepped
    refine ⟨resultCanonical, fun x => ?_⟩
    rw [List.foldl_cons, resultPoints, points, denotes_cons]
    tauto

/-- For two lists sorted by start, the loop of `Union` gives a canonical list of
exactly their points. -/
theorem unionIntervals_spec {s1 s2 : List Interval}
    (sorted1 : s1.Pairwise (fun a b => a.start ≤ b.start)) (nonempty1 : ∀ iv ∈ s1, iv.Nonempty)
    (sorted2 : s2.Pairwise (fun a b => a.start ≤ b.start)) (nonempty2 : ∀ iv ∈ s2, iv.Nonempty) :
    IntervalList.Canonical (unionIntervals [] s1 s2) ∧
      ∀ x, Denotes (unionIntervals [] s1 s2) x ↔ Denotes s1 x ∨ Denotes s2 x := by
  have : Std.Total (fun a b : Interval => a.start ≤ b.start) := ⟨fun a b => le_total _ _⟩
  have : IsTrans Interval (fun a b => a.start ≤ b.start) := ⟨fun _ _ _ => le_trans⟩
  have perm : (s1.merge s2 startLe).Perm (s1 ++ s2) := List.merge_perm_append startLe
  have mergedSorted : (s1.merge s2 startLe).Pairwise (fun a b => a.start ≤ b.start) :=
    sorted1.merge sorted2
  have mergedNonempty : ∀ iv ∈ s1.merge s2 startLe, iv.Nonempty := by
    intro iv member
    rcases List.mem_append.mp (perm.subset member) with first | second
    · exact nonempty1 iv first
    · exact nonempty2 iv second
  have start : SweepInvariant [] (s1.merge s2 startLe) := ⟨by simp [IntervalList.Canonical], by simp⟩
  obtain ⟨canonical, points⟩ := foldl_unionStep mergedSorted mergedNonempty start
  rw [unionIntervals_eq]
  refine ⟨canonical, fun x => ?_⟩
  rw [denotes_reverse, points, denotes_perm perm, denotes_append]
  simp

/-! ### `ContainsGTID` and the loop of `AddGTID` for the server -/

/-- On a canonical list, `ContainsGTID`'s early stop is sound: it finds exactly
the points of the list. -/
theorem containsSequence_iff {sequence : ℤ} :
    ∀ {ivs : List Interval}, IntervalList.Canonical ivs →
      (containsSequence sequence ivs = true ↔ Denotes ivs sequence)
  | [], _ => by simp [containsSequence]
  | iv :: rest, canonical => by
    rw [containsSequence]
    by_cases past : iv.start > sequence
    · rw [if_pos past]
      exact ⟨nofun, fun point => absurd (canonical.start_le point) (by omega)⟩
    · rw [if_neg past]
      by_cases inside : sequence ≤ iv.stop
      · rw [if_pos inside]
        exact ⟨fun _ => denotes_cons.mpr (.inl ⟨by omega, inside⟩), fun _ => rfl⟩
      · rw [if_neg inside, containsSequence_iff canonical.tail, denotes_cons]
        exact ⟨.inr, fun point => point.elim (fun inIv => absurd inIv.2 inside) id⟩

/-- Past a gap, "merging with the previous one" is a plain append. -/
theorem appendMerging_of_gap {newIntervals : List Interval} {iv : Interval}
    (gap : ∀ last ∈ newIntervals.head?, last.stop + 1 < iv.start) :
    appendMerging newIntervals iv = iv :: newIntervals := by
  cases newIntervals with
  | nil => rfl
  | cons last earlier =>
    have := gap last rfl
    rw [appendMerging, if_neg (by omega)]

/-- Once the GTID is placed the loop of `AddGTID` only merges and appends. -/
theorem foldl_addStep_placed (sequence : ℤ) :
    ∀ (rest newIntervals : List Interval),
      rest.foldl (addStep sequence) (newIntervals, true) = (rest.foldl appendMerging newIntervals, true)
  | [], _ => rfl
  | iv :: rest, newIntervals => foldl_addStep_placed sequence rest (appendMerging newIntervals iv)

/-- Merging and appending the rest of a canonical list after a last interval
that ends before it keeps the list canonical: only the first interval of the rest
can touch the last one, and then it is merged into it. -/
theorem foldl_appendMerging :
    ∀ {rest earlier : List Interval} {last : Interval},
      IntervalList.Canonical (last :: earlier).reverse → IntervalList.Canonical rest →
      (∀ next ∈ rest, last.stop < next.start) →
      IntervalList.Canonical (rest.foldl appendMerging (last :: earlier)).reverse ∧
        ∀ x, Denotes (rest.foldl appendMerging (last :: earlier)) x ↔
          Denotes (last :: earlier) x ∨ Denotes rest x
  | [], _, _, canonical, _, _ => ⟨canonical, by simp⟩
  | next :: rest, earlier, last, canonical, restCanonical, after => by
    obtain ⟨nextNonempty, nextSeparated, restCanonical⟩ := Canonical.cons_iff.mp restCanonical
    obtain ⟨earlierCanonical, lastNonempty, lastSeparated⟩ := canonical_reverse_cons.mp canonical
    have lastBefore := after next List.mem_cons_self
    have beyondNext : ∀ later ∈ rest, next.stop < later.start := fun later member => by
      have := nextSeparated later member
      unfold Separated at this
      omega
    unfold Interval.Nonempty at nextNonempty lastNonempty
    rw [List.foldl_cons, appendMerging]
    split
    · -- `next` starts right after the last interval, which grows over it
      rename_i touching
      have grown : IntervalList.Canonical ({ last with stop := next.stop } :: earlier).reverse :=
        canonical_reverse_cons.mpr ⟨earlierCanonical, by unfold Interval.Nonempty; dsimp only; omega,
          lastSeparated⟩
      obtain ⟨resultCanonical, points⟩ := foldl_appendMerging grown restCanonical beyondNext
      refine ⟨resultCanonical, fun x => ?_⟩
      have extended : ({ last with stop := next.stop } : Interval).Mem x ↔
          last.Mem x ∨ next.Mem x := by
        simp only [Interval.Mem]
        omega
      rw [points]
      simp only [denotes_cons, extended]
      tauto
    · -- a gap: `next` is appended
      rename_i apart
      have appended : IntervalList.Canonical (next :: last :: earlier).reverse := by
        refine canonical_reverse_cons.mpr ⟨canonical, nextNonempty, ?_⟩
        intro before member
        rcases List.mem_cons.mp member with rfl | isEarlier
        · unfold Separated
          omega
        · have := lastSeparated before isEarlier
          unfold Separated at this ⊢
          omega
      obtain ⟨resultCanonical, points⟩ := foldl_appendMerging appended restCanonical beyondNext
      refine ⟨resultCanonical, fun x => ?_⟩
      rw [points]
      simp only [denotes_cons]
      tauto

/-- What the loop of `AddGTID` over the server's intervals leaves: when the
GTID was placed, a canonical list, last first, of exactly one more point; when it
was not, the list unchanged, every interval ending more than one before it. -/
def AddOutcome (sequence : ℤ) (intervals : List Interval) : List Interval × Bool → Prop
  | (newIntervals, true) =>
    IntervalList.Canonical newIntervals.reverse ∧
      ∀ x, Denotes newIntervals x ↔ Denotes intervals x ∨ x = sequence
  | (newIntervals, false) => newIntervals = intervals.reverse ∧ ∀ iv ∈ intervals, iv.stop + 1 < sequence

/-- The loop of `AddGTID` over a canonical list that lacks the sequence number,
from the intervals already copied, all more than one below it. -/
theorem foldl_addStep {sequence : ℤ} :
    ∀ {rest newIntervals : List Interval},
      IntervalList.Canonical (newIntervals.reverse ++ rest) →
      (∀ iv ∈ newIntervals, iv.stop + 1 < sequence) → ¬ Denotes rest sequence →
      AddOutcome sequence (newIntervals.reverse ++ rest)
        (rest.foldl (addStep sequence) (newIntervals, false))
  | [], newIntervals, _, below, _ => ⟨by simp, by simpa using below⟩
  | iv :: rest, newIntervals, canonical, below, missing => by
    obtain ⟨copiedCanonical, restCanonical', across⟩ := Canonical.append_iff.mp canonical
    obtain ⟨ivNonempty, ivSeparated, restCanonical⟩ := Canonical.cons_iff.mp restCanonical'
    have ivMissing : ¬ iv.Mem sequence := fun inside => missing (denotes_cons.mpr (.inl inside))
    have restMissing : ¬ Denotes rest sequence := fun inside => missing (denotes_cons.mpr (.inr inside))
    have copiedBefore : ∀ before ∈ newIntervals, Separated before iv := fun before member =>
      across before (List.mem_reverse.mpr member) iv List.mem_cons_self
    have beyondIv : ∀ later ∈ rest, iv.stop < later.start := fun later member => by
      have := ivSeparated later member
      unfold Separated at this
      omega
    have gapBelow : ∀ last ∈ newIntervals.head?, last.stop + 1 < sequence := fun last isLast =>
      below last (List.mem_of_mem_head? isLast)
    unfold Interval.Nonempty at ivNonempty
    unfold Interval.Mem at ivMissing
    rw [List.foldl_cons, addStep]
    split
    · -- the GTID extends `iv` down
      rename_i down
      have downGap : ∀ last ∈ newIntervals.head?,
          last.stop + 1 < ({ iv with start := sequence } : Interval).start := gapBelow
      have placed : IntervalList.Canonical (({ iv with start := sequence } : Interval) :: newIntervals).reverse :=
        canonical_reverse_cons.mpr ⟨copiedCanonical, by unfold Interval.Nonempty; dsimp only; omega,
          fun before member => below before member⟩
      rw [appendMerging_of_gap downGap, foldl_addStep_placed]
      obtain ⟨resultCanonical, points⟩ := foldl_appendMerging placed restCanonical beyondIv
      refine ⟨resultCanonical, fun x => ?_⟩
      have widened : ({ iv with start := sequence } : Interval).Mem x ↔ iv.Mem x ∨ x = sequence := by
        simp only [Interval.Mem]
        omega
      rw [points]
      simp only [denotes_cons, widened, denotes_append, denotes_reverse]
      tauto
    · split
      · -- the GTID extends `iv` up
        rename_i notDown up
        have upGap : ∀ last ∈ newIntervals.head?,
            last.stop + 1 < ({ iv with stop := sequence } : Interval).start :=
          fun last isLast => copiedBefore last (List.mem_of_mem_head? isLast)
        have placed : IntervalList.Canonical (({ iv with stop := sequence } : Interval) :: newIntervals).reverse :=
          canonical_reverse_cons.mpr ⟨copiedCanonical, by unfold Interval.Nonempty; dsimp only; omega,
            copiedBefore⟩
        have beyond : ∀ later ∈ rest, ({ iv with stop := sequence } : Interval).stop < later.start :=
          fun later member => by
            have := ivSeparated later member
            unfold Separated at this
            dsimp only
            omega
        rw [appendMerging_of_gap upGap, foldl_addStep_placed]
        obtain ⟨resultCanonical, points⟩ := foldl_appendMerging placed restCanonical beyond
        refine ⟨resultCanonical, fun x => ?_⟩
        have widened : ({ iv with stop := sequence } : Interval).Mem x ↔ iv.Mem x ∨ x = sequence := by
          simp only [Interval.Mem]
          omega
        rw [points]
        simp only [denotes_cons, widened, denotes_append, denotes_reverse]
        tauto
      · split
        · -- the GTID goes in as an interval of its own before `iv`
          rename_i notDown notUp gap
          have single : IntervalList.Canonical ((⟨sequence, sequence⟩ : Interval) :: newIntervals).reverse :=
            canonical_reverse_cons.mpr ⟨copiedCanonical, le_refl sequence,
              fun before member => below before member⟩
          rw [appendMerging_of_gap (fun last isLast => by cases isLast; dsimp only; omega),
            foldl_addStep_placed]
          have placed : IntervalList.Canonical
              (iv :: (⟨sequence, sequence⟩ : Interval) :: newIntervals).reverse := by
            refine canonical_reverse_cons.mpr ⟨single, ivNonempty, ?_⟩
            intro before member
            rcases List.mem_cons.mp member with rfl | isCopied
            · unfold Separated
              dsimp only
              omega
            · exact copiedBefore before isCopied
          obtain ⟨resultCanonical, points⟩ := foldl_appendMerging placed restCanonical beyondIv
          refine ⟨resultCanonical, fun x => ?_⟩
          have alone : (⟨sequence, sequence⟩ : Interval).Mem x ↔ x = sequence := by
            simp only [Interval.Mem]
            omega
          rw [points]
          simp only [denotes_cons, alone, denotes_append, denotes_reverse]
          tauto
        · -- the GTID lies more than one past `iv`: copy it and go on
          rename_i notDown notUp noGap
          rw [appendMerging_of_gap (fun last isLast => copiedBefore last (List.mem_of_mem_head? isLast))]
          have rearranged : (iv :: newIntervals).reverse ++ rest = newIntervals.reverse ++ iv :: rest := by
            simp
          have outcome := foldl_addStep (rearranged ▸ canonical)
            (fun before member => by
              rcases List.mem_cons.mp member with rfl | isCopied
              · omega
              · exact below before isCopied)
            restMissing
          rw [rearranged] at outcome
          exact outcome

/-! ### `AddGTID` on whole sets -/

/-- What the loop of `AddGTID` over the map stores for a SID: the server's list
through `addStep`, any other list as it is. -/
def addedIntervals (gtid : Mysql56GTID) (sid : SID) (intervals : List Interval) : List Interval :=
  if sid = gtid.server then (intervals.foldl (addStep gtid.sequence) ([], false)).1.reverse
  else intervals

/-- Over SIDs other than the server the loop copies and leaves `added` alone. -/
theorem foldl_addEntry_away (gtid : Mysql56GTID) :
    ∀ (entries : List (Σ _ : SID, List Interval)) (newSet : Mysql56GTIDSet) (added : Bool),
      (∀ entry ∈ entries, entry.1 ≠ gtid.server) →
      entries.foldl (addEntry gtid) (newSet, added) =
        (entries.foldl (fun map entry => map.insert entry.1 entry.2) newSet, added)
  | [], _, _, _ => rfl
  | entry :: rest, newSet, added, away => by
    rw [List.foldl_cons, List.foldl_cons, addEntry, if_neg (away entry List.mem_cons_self)]
    exact foldl_addEntry_away gtid rest _ added fun other member =>
      away other (List.mem_cons_of_mem entry member)

/-- The loop of `AddGTID` over the map: each SID gets `addedIntervals`, and
`added` is the flag the server's loop ended with, or false without the server. -/
theorem foldl_addEntry (gtid : Mysql56GTID) :
    ∀ (entries : List (Σ _ : SID, List Interval)) (newSet : Mysql56GTIDSet), entries.NodupKeys →
      entries.foldl (addEntry gtid) (newSet, false) =
        (entries.foldl (fun map entry => map.insert entry.1 (addedIntervals gtid entry.1 entry.2)) newSet,
          ((entries.dlookup gtid.server).map fun intervals =>
            (intervals.foldl (addStep gtid.sequence) ([], false)).2).getD false)
  | [], _, _ => rfl
  | ⟨sid, intervals⟩ :: rest, newSet, nodup => by
    obtain ⟨fresh, nodupRest⟩ := List.nodupKeys_cons.mp nodup
    rw [List.foldl_cons, List.foldl_cons]
    by_cases server : sid = gtid.server
    · -- the server's entry; the rest are other SIDs, copied as they are
      subst server
      have away : ∀ entry ∈ rest, entry.1 ≠ gtid.server := by
        intro entry member same
        have key := List.mem_keys_of_mem member
        rw [same] at key
        exact fresh key
      rw [addEntry, if_pos rfl, foldl_addEntry_away _ rest _ _ away, List.dlookup_cons_eq]
      dsimp only
      rw [addedIntervals, if_pos rfl, Option.map_some, Option.getD_some]
      refine Prod.ext ?_ rfl
      refine List.foldl_ext _ _ _ fun map entry member => ?_
      rw [addedIntervals, if_neg (away entry member)]
    · rw [addEntry, if_neg server, foldl_addEntry gtid rest _ nodupRest,
        List.dlookup_cons_ne _ _ (Ne.symm server), addedIntervals, if_neg server]

/-- `AddGTID` of a GTID that a canonical set lacks: every other SID keeps its
list, and the server gets a canonical list of exactly its points and the GTID. -/
theorem addGTID_lookup {set : Mysql56GTIDSet} (canonical : set.Canonical) {gtid : Mysql56GTID}
    (missing : ¬ set.Denotes gtid.server gtid.sequence) :
    (∀ sid, sid ≠ gtid.server → (set.addGTID gtid).lookup sid = set.lookup sid) ∧
      ∃ merged, (set.addGTID gtid).lookup gtid.server = some merged ∧
        IntervalList.Canonical merged ∧
        ∀ x, Denotes merged x ↔ Denotes ((set.lookup gtid.server).getD []) x ∨ x = gtid.sequence := by
  have serverCanonical := (canonical.getD gtid.server).1
  have absent : set.containsGTID gtid = false := by
    rw [Bool.eq_false_iff, ne_eq, Mysql56GTIDSet.containsGTID, containsSequence_iff serverCanonical]
    exact missing
  have stored : ∀ sid, (set.entries.foldl
      (fun (map : Mysql56GTIDSet) entry => map.insert entry.1 (addedIntervals gtid entry.1 entry.2))
        ∅).lookup sid =
      (set.lookup sid).map (addedIntervals gtid sid) := by
    intro sid
    rw [KeyedFold.lookup_foldl_insert _ _ _ set.nodupKeys, AList.lookup_empty, Option.or_none]
    rfl
  have kept : ∀ sid, sid ≠ gtid.server →
      (set.lookup sid).map (addedIntervals gtid sid) = set.lookup sid := by
    intro sid away
    cases set.lookup sid <;> simp [addedIntervals, away]
  rw [Mysql56GTIDSet.addGTID, if_neg (by rw [absent]; decide), foldl_addEntry _ _ _ set.nodupKeys]
  dsimp only
  cases found : set.lookup gtid.server with
  | none =>
    -- the server is new: it gets the GTID alone
    have noServer : set.entries.dlookup gtid.server = none := found
    rw [noServer, Option.map_none, Option.getD_none]
    simp only [Bool.not_false, ↓reduceIte]
    refine ⟨fun sid away => by rw [AList.lookup_insert_ne away, stored, kept sid away], ?_⟩
    refine ⟨_, AList.lookup_insert _, ?_, fun x => ?_⟩
    · rw [stored, found, Option.map_none, Option.getD_none, List.nil_append]
      simp [IntervalList.Canonical, Interval.Nonempty]
    · rw [stored, found]
      simp [Interval.Mem, le_antisymm_iff, and_comm]
  | some intervals =>
    have server : set.entries.dlookup gtid.server = some intervals := found
    have outcome : AddOutcome gtid.sequence intervals
        (intervals.foldl (addStep gtid.sequence) ([], false)) :=
      @foldl_addStep gtid.sequence intervals [] (by simpa using (canonical.lookup found).1) (by simp)
        (by simpa [Mysql56GTIDSet.Denotes, found] using missing)
    rw [server, Option.map_some, Option.getD_some]
    have serverStored : (set.entries.foldl
        (fun (map : Mysql56GTIDSet) entry => map.insert entry.1 (addedIntervals gtid entry.1 entry.2))
          ∅).lookup gtid.server =
        some (List.foldl (addStep gtid.sequence) ([], false) intervals).1.reverse := by
      rw [stored, found, Option.map_some, addedIntervals, if_pos rfl]
    generalize List.foldl (addStep gtid.sequence) ([], false) intervals = loop at outcome serverStored ⊢
    obtain ⟨newIntervals, added⟩ := loop
    cases added with
    | true =>
      -- the loop placed the GTID
      obtain ⟨placedCanonical, points⟩ := outcome
      simp only [Bool.not_true, Bool.false_eq_true, ↓reduceIte]
      refine ⟨fun sid away => by rw [stored, kept sid away], newIntervals.reverse, serverStored,
        placedCanonical, fun x => ?_⟩
      rw [denotes_reverse, points, Option.getD_some]
    | false =>
      -- no interval took the GTID: it is appended on its own, past every interval
      obtain ⟨unchanged, below⟩ := outcome
      simp only [Bool.not_false, ↓reduceIte]
      rw [serverStored, unchanged, List.reverse_reverse, Option.getD_some]
      refine ⟨fun sid away => by rw [AList.lookup_insert_ne away, stored, kept sid away], _,
        AList.lookup_insert _, ?_, fun x => ?_⟩
      · refine Canonical.append_iff.mpr ⟨(canonical.lookup found).1, ?_, ?_⟩
        · simp [IntervalList.Canonical, Interval.Nonempty]
        · intro iv member single isSingle
          rw [List.mem_singleton] at isSingle
          subst isSingle
          exact below iv member
      · rw [denotes_append]
        simp [Interval.Mem, le_antisymm_iff, and_comm]

/-- `AddGTID` on a canonical set and a positive sequence number: the result holds
exactly the set's GTIDs and the new one, is canonical, and is the set itself when
the GTID was there already. -/
theorem addGTID_adds_exactly (set : Mysql56GTIDSet) (canonical : set.Canonical)
    (gtid : Mysql56GTID) (positive : 1 ≤ gtid.sequence) :
    (∀ sid n, (set.addGTID gtid).Denotes sid n ↔
        set.Denotes sid n ∨ (sid = gtid.server ∧ n = gtid.sequence)) ∧
      (set.addGTID gtid).Canonical ∧
      (set.Denotes gtid.server gtid.sequence → set.addGTID gtid = set) := by
  by_cases present : set.Denotes gtid.server gtid.sequence
  · have contained : set.containsGTID gtid = true :=
      (containsSequence_iff (canonical.getD gtid.server).1).mpr present
    have same : set.addGTID gtid = set := by
      rw [Mysql56GTIDSet.addGTID, if_pos contained]
    rw [same]
    refine ⟨fun sid n => ⟨.inl, ?_⟩, canonical, fun _ => rfl⟩
    rintro (inside | ⟨rfl, rfl⟩)
    · exact inside
    · exact present
  obtain ⟨others, merged, isMerged, mergedCanonical, points⟩ := addGTID_lookup canonical present
  refine ⟨fun sid n => ?_, ?_, fun inside => absurd inside present⟩
  · by_cases same : sid = gtid.server
    · subst same
      simp only [Mysql56GTIDSet.Denotes, isMerged, Option.getD_some, points, true_and]
    · simp only [Mysql56GTIDSet.Denotes, others sid same, same, false_and, or_false]
  · apply Mysql56GTIDSet.canonical_of_lookup
    intro sid intervals found
    by_cases same : sid = gtid.server
    · subst same
      rw [isMerged, Option.some.injEq] at found
      subst found
      -- every start of the new list is a point of the old list or the GTID, all positive
      have within : ∀ x, Denotes merged x →
          Denotes ((set.lookup gtid.server).getD [] ++ [⟨gtid.sequence, gtid.sequence⟩]) x := by
        intro x inside
        rw [denotes_append]
        rcases (points x).mp inside with old | rfl
        · exact .inl old
        · exact .inr (denotes_cons.mpr (.inl ⟨le_refl _, le_refl _⟩))
      refine ⟨mergedCanonical, start_pos_of_subset mergedCanonical.1 within ?_⟩
      intro iv member
      rcases List.mem_append.mp member with old | single
      · exact (canonical.getD gtid.server).2 iv old
      · rw [List.mem_singleton.mp single]
        exact positive
    · rw [others sid same] at found
      exact canonical.lookup found

/-- Two intervals one apart, which the GTID between them joins. -/
def gappedSet : Mysql56GTIDSet :=
  AList.insert exampleSID [⟨1, 5⟩, ⟨7, 9⟩] ∅

theorem addGTID_adds_exactly_example :
    gappedSet.Canonical ∧ (1 : ℤ) ≤ (⟨exampleSID, 6⟩ : Mysql56GTID).sequence ∧
      ((∀ sid n, (gappedSet.addGTID ⟨exampleSID, 6⟩).Denotes sid n ↔
          gappedSet.Denotes sid n ∨ (sid = exampleSID ∧ n = 6)) ∧
        (gappedSet.addGTID ⟨exampleSID, 6⟩).Canonical ∧
        (gappedSet.Denotes exampleSID 6 → gappedSet.addGTID ⟨exampleSID, 6⟩ = gappedSet)) :=
  ⟨by decide, by decide, addGTID_adds_exactly _ (by decide) _ (by decide)⟩

example : (gappedSet.addGTID ⟨exampleSID, 6⟩).lookup exampleSID = some [⟨1, 9⟩] := by decide

/-! ### `Union` on whole sets -/

/-- What `Union` holds at a SID: what the first loop stored for the other set's
list there, or else our own list. -/
theorem union_lookup (set other : Mysql56GTIDSet) (sid : SID) :
    (set.union other).lookup sid =
      ((other.lookup sid).map (unionEntryIntervals set sid)).or (set.lookup sid) := by
  have ownStep : unionOwnEntry = fun map entry =>
      if (map.lookup entry.1).isNone then map.insert entry.1 entry.2 else map := rfl
  have otherStep : unionOtherEntry set = fun map entry =>
      map.insert entry.1 (unionEntryIntervals set entry.1 entry.2) := rfl
  rw [Mysql56GTIDSet.union, ownStep, otherStep,
    KeyedFold.lookup_foldl_insertAbsent _ _ set.nodupKeys,
    KeyedFold.lookup_foldl_insert _ _ _ other.nodupKeys, AList.lookup_empty, Option.or_none]
  rfl

section UnionSorted

variable {set other : Mysql56GTIDSet} (sorted : set.SortedByStart)
  (otherSorted : other.SortedByStart)
include sorted otherSorted

/-- At a SID both sets hold, `Union` stores a canonical list of exactly the
points of the two lists. -/
theorem union_lookup_shared {sid : SID} {intervals otherIntervals : List Interval}
    (found : set.lookup sid = some intervals) (otherFound : other.lookup sid = some otherIntervals) :
    (set.union other).lookup sid = some (unionIntervals [] intervals otherIntervals) ∧
      IntervalList.Canonical (unionIntervals [] intervals otherIntervals) ∧
      ∀ x, Denotes (unionIntervals [] intervals otherIntervals) x ↔
        Denotes intervals x ∨ Denotes otherIntervals x := by
  obtain ⟨sorted1, nonempty1⟩ := sorted.lookup found
  obtain ⟨sorted2, nonempty2⟩ := otherSorted.lookup otherFound
  refine ⟨?_, unionIntervals_spec sorted1 nonempty1 sorted2 nonempty2⟩
  rw [union_lookup, otherFound, Option.map_some, Option.some_or, unionEntryIntervals, found]

/-- `Union` denotes exactly the GTIDs of either set. -/
theorem union_denotes (sid : SID) (n : ℤ) :
    (set.union other).Denotes sid n ↔ set.Denotes sid n ∨ other.Denotes sid n := by
  unfold Mysql56GTIDSet.Denotes
  cases found : set.lookup sid with
  | none =>
    cases otherFound : other.lookup sid with
    | none => simp [union_lookup, found, otherFound]
    | some otherIntervals => simp [union_lookup, found, otherFound, unionEntryIntervals]
  | some intervals =>
    cases otherFound : other.lookup sid with
    | none => simp [union_lookup, found, otherFound]
    | some otherIntervals =>
      obtain ⟨stored, -, points⟩ := union_lookup_shared sorted otherSorted found otherFound
      rw [stored, Option.getD_some, Option.getD_some, Option.getD_some, points]

end UnionSorted

/-- `Union` of two canonical sets is canonical: a SID of one set only keeps its
list, and a shared SID gets a canonical list whose points, and so whose starts,
are those of the two lists. -/
theorem union_canonical {set other : Mysql56GTIDSet} (canonical : set.Canonical)
    (otherCanonical : other.Canonical) : (set.union other).Canonical := by
  apply Mysql56GTIDSet.canonical_of_lookup
  intro sid merged stored
  cases found : set.lookup sid with
  | none =>
    cases otherFound : other.lookup sid with
    | none => simp [union_lookup, found, otherFound] at stored
    | some otherIntervals =>
      simp only [union_lookup, found, otherFound, Option.map_some, Option.some_or,
        unionEntryIntervals, Option.some.injEq] at stored
      exact stored ▸ otherCanonical.lookup otherFound
  | some intervals =>
    cases otherFound : other.lookup sid with
    | none =>
      simp only [union_lookup, found, otherFound, Option.map_none, Option.none_or] at stored
      cases stored
      exact canonical.lookup found
    | some otherIntervals =>
      obtain ⟨storedShared, mergedCanonical, points⟩ :=
        union_lookup_shared canonical.sortedByStart otherCanonical.sortedByStart found otherFound
      cases stored.symm.trans storedShared
      refine ⟨mergedCanonical, start_pos_of_subset mergedCanonical.1
        (fun x point => denotes_append.mpr ((points x).mp point)) ?_⟩
      intro iv member
      rcases List.mem_append.mp member with mine | theirs
      · exact (canonical.lookup found).2 iv mine
      · exact (otherCanonical.lookup otherFound).2 iv theirs

/-- `Union` of two sets whose lists are sorted by start denotes exactly the GTIDs
of either set; at every SID both sets hold it stores a sorted, disjoint list of
intervals that never touch, whose starts are positive when those of the two
lists are; and it keeps sets canonical. -/
theorem union_exact_and_canonical (set other : Mysql56GTIDSet) (sorted : set.SortedByStart)
    (otherSorted : other.SortedByStart) :
    (∀ sid n, (set.union other).Denotes sid n ↔ set.Denotes sid n ∨ other.Denotes sid n) ∧
      (∀ sid intervals otherIntervals, set.lookup sid = some intervals →
        other.lookup sid = some otherIntervals →
        ∃ merged, (set.union other).lookup sid = some merged ∧ IntervalList.Canonical merged ∧
          ((∀ iv ∈ intervals ++ otherIntervals, 1 ≤ iv.start) → ∀ iv ∈ merged, 1 ≤ iv.start)) ∧
      (set.Canonical → other.Canonical → (set.union other).Canonical) := by
  refine ⟨union_denotes sorted otherSorted, ?_, fun canonical otherCanonical =>
    union_canonical canonical otherCanonical⟩
  intro sid intervals otherIntervals found otherFound
  obtain ⟨stored, canonical, points⟩ := union_lookup_shared sorted otherSorted found otherFound
  exact ⟨_, stored, canonical, start_pos_of_subset canonical.1
    fun x point => denotes_append.mpr ((points x).mp point)⟩

theorem union_exact_and_canonical_example :
    Mysql56GTIDSet.SortedByStart (AList.insert exampleSID [⟨1, 5⟩] ∅) ∧
      Mysql56GTIDSet.SortedByStart (AList.insert exampleSID [⟨3, 8⟩] ∅) ∧
      ((∀ sid n, Mysql56GTIDSet.Denotes (Mysql56GTIDSet.union (AList.insert exampleSID [⟨1, 5⟩] ∅)
          (AList.insert exampleSID [⟨3, 8⟩] ∅)) sid n ↔
          Mysql56GTIDSet.Denotes (AList.insert exampleSID [⟨1, 5⟩] ∅) sid n ∨
            Mysql56GTIDSet.Denotes (AList.insert exampleSID [⟨3, 8⟩] ∅) sid n) ∧
        (∀ sid intervals otherIntervals,
          AList.lookup sid (AList.insert exampleSID [⟨1, 5⟩] ∅ : Mysql56GTIDSet) = some intervals →
          AList.lookup sid (AList.insert exampleSID [⟨3, 8⟩] ∅ : Mysql56GTIDSet) = some otherIntervals →
          ∃ merged, (Mysql56GTIDSet.union (AList.insert exampleSID [⟨1, 5⟩] ∅)
              (AList.insert exampleSID [⟨3, 8⟩] ∅)).lookup sid = some merged ∧
            IntervalList.Canonical merged ∧
            ((∀ iv ∈ intervals ++ otherIntervals, 1 ≤ iv.start) → ∀ iv ∈ merged, 1 ≤ iv.start)) ∧
        (Mysql56GTIDSet.Canonical (AList.insert exampleSID [⟨1, 5⟩] ∅) →
          Mysql56GTIDSet.Canonical (AList.insert exampleSID [⟨3, 8⟩] ∅) →
          (Mysql56GTIDSet.union (AList.insert exampleSID [⟨1, 5⟩] ∅)
            (AList.insert exampleSID [⟨3, 8⟩] ∅)).Canonical)) :=
  ⟨by decide, by decide, union_exact_and_canonical _ _ (by decide) (by decide)⟩

/-- A set whose one interval starts at 0: sorted, with `start <= end`, but not
normalized, since `ParseMysql56GTIDSet` would have refused the start. -/
def zeroStartSet : Mysql56GTIDSet :=
  AList.insert exampleSID [⟨0, 0⟩] ∅

/-- `Union` keeps the intervals of a SID both sets hold as they start: the union
of the sorted set `zeroStartSet` with itself stores `0-0` there, which is not
normalized. -/
theorem union_keeps_zero_start :
    zeroStartSet.SortedByStart ∧
      (zeroStartSet.union zeroStartSet).lookup exampleSID = some [⟨0, 0⟩] ∧
      ¬ (zeroStartSet.union zeroStartSet).Canonical := by
  have found : zeroStartSet.lookup exampleSID = some [⟨0, 0⟩] := rfl
  have stored : (zeroStartSet.union zeroStartSet).lookup exampleSID = some [⟨0, 0⟩] := by
    rw [union_lookup, found, Option.map_some, Option.some_or, unionEntryIntervals, found]
    dsimp only
    rw [unionIntervals_eq, List.cons_merge_cons, if_pos (by decide), List.nil_merge]
    rfl
  refine ⟨by decide, stored, fun canonical => ?_⟩
  have positive := (canonical.lookup stored).2 ⟨0, 0⟩ (List.mem_singleton_self _)
  exact absurd positive (by decide)

end Vitess.Replication
