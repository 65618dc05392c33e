import Vitess.Replication.Mysql56GtidSet
import Vitess.Data.KeyedFold

/-!
# Difference of MySQL 5.6 GTID sets

`Mysql56GTIDSet.Difference` of `go/mysql/replication/mysql56_gtid_set.go`. For
each SID of the receiver it subtracts the other set's intervals in one loop,
`diffLoop`, over the receiver's current interval
`diffIntervals[len(diffIntervals)-1]` and the other set's current interval
`otherInterval`. Each round takes one of six cases by how the two overlap,
trims, drops or splits the current interval, and moves on in one of the two
lists.

A round is `DiffLoop.step` on the loop's variables, and `DiffLoop.run` repeats
it until the loop breaks. One invariant, `DiffLoop.Invariant`, carries the loop:
the set to be computed is what is done, plus what is left of the receiver minus
what is left of the other set. From it:

* the six cases cover every pair of intervals, so the panic is never reached,
  whatever the lists (`difference_ok`);
* on sorted, disjoint lists the result is exact, sorted and disjoint, and has no
  empty list unless the receiver had one (`difference_denotes`,
  `difference_ordered`), provided the other set maps none of the receiver's
  SIDs with intervals to an empty list. There the early exit
  `differenceSet[sid] = intervals` stores the receiver's list without its first
  interval, which `advance()` has already taken
  (`difference_drops_first_interval`).

Intervals are `int64` in Go. The loop computes `start - 1` only of a start above
another start and `end + 1` only of an end below another end, so no value leaves
the range, and `ℤ` models them.
-/

namespace Vitess.Replication

open Vitess.IntervalList Vitess.KeyedFold

/-- The variables of `diffLoop` at the top of a round. `diffIntervals` is never
empty there: `current` is its last element and `done` holds the others, last
first. -/
structure DiffLoop where
  current : Interval
  done : List Interval
  intervals : List Interval
  otherInterval : Interval
  otherIntervals : List Interval
  deriving DecidableEq, Repr

/-- How a round of `diffLoop` ends. -/
inductive DiffStep where
  /-- The loop goes round again. -/
  | next (st : DiffLoop)
  /-- `break diffLoop`, with `diffIntervals` in Go's order and the receiver's
  intervals not yet visited. -/
  | exit (diffIntervals intervals : List Interval)
  /-- `panic("This should never happen.")`. -/
  | panic
  deriving DecidableEq, Repr

namespace DiffLoop

/-- `advance()` once `diffIntervals` is `done` (last first): the receiver's next
interval becomes the current one, or the loop breaks. -/
def advance (done : List Interval) (st : DiffLoop) : DiffStep :=
  match st.intervals with
  | [] => .exit done.reverse []
  | iv :: rest => .next ⟨iv, done, rest, st.otherInterval, st.otherIntervals⟩

/-- `advanceOther()` once `diffIntervals` is `current` after `done`: the other
set's next interval becomes `otherInterval`, or the loop breaks. -/
def advanceOther (current : Interval) (done : List Interval) (st : DiffLoop) : DiffStep :=
  match st.otherIntervals with
  | [] => .exit (current :: done).reverse st.intervals
  | other :: rest => .next ⟨current, done, st.intervals, other, rest⟩

/-- One round of `diffLoop`: the cases of its `switch`, in order. -/
def step (st : DiffLoop) : DiffStep :=
  let iv := st.current
  let other := st.otherInterval
  if iv.stop < other.start then
    -- [1, 2] - [3, 5]
    advance (iv :: st.done) st
  else if iv.start > other.stop then
    -- [3, 5] - [1, 2]
    advanceOther iv st.done st
  else if iv.start ≥ other.start ∧ iv.stop ≤ other.stop then
    -- [3, 4] - [1, 5]: the interval is popped
    advance st.done st
  else if iv.start < other.start ∧ iv.stop ≥ other.start ∧ iv.stop ≤ other.stop then
    -- [1, 4] - [3, 5]
    advance (⟨iv.start, other.start - 1⟩ :: st.done) st
  else if iv.start ≥ other.start ∧ iv.start ≤ other.stop ∧ iv.stop > other.stop then
    -- [3, 7] - [1, 5]
    advanceOther ⟨other.stop + 1, iv.stop⟩ st.done st
  else if iv.start < other.start ∧ iv.stop > other.stop then
    -- [1, 7] - [3, 4]: the end piece is pushed after the trimmed interval
    advanceOther ⟨other.stop + 1, iv.stop⟩ (⟨iv.start, other.start - 1⟩ :: st.done) st
  else .panic

/-- The intervals of both lists not yet visited. -/
def remaining (st : DiffLoop) : ℕ :=
  st.intervals.length + st.otherIntervals.length

theorem remaining_advance {done : List Interval} {st next : DiffLoop}
    (advanced : advance done st = .next next) : next.remaining < st.remaining := by
  obtain ⟨current, done', intervals, other, others⟩ := st
  cases intervals with
  | nil => cases advanced
  | cons iv rest =>
    cases advanced
    simp [remaining]

theorem remaining_advanceOther {current : Interval} {done : List Interval} {st next : DiffLoop}
    (advanced : advanceOther current done st = .next next) : next.remaining < st.remaining := by
  obtain ⟨current', done', intervals, other, others⟩ := st
  cases others with
  | nil => cases advanced
  | cons other' rest =>
    cases advanced
    simp [remaining]

/-- Every round that goes on visits one more interval of one of the lists. -/
theorem remaining_step {st next : DiffLoop} (stepped : st.step = .next next) :
    next.remaining < st.remaining := by
  unfold step at stepped
  dsimp only at stepped
  -- the six cases in order; the panic does not go on
  split_ifs at stepped
  · exact remaining_advance stepped
  · exact remaining_advanceOther stepped
  · exact remaining_advance stepped
  · exact remaining_advance stepped
  · exact remaining_advanceOther stepped
  · exact remaining_advanceOther stepped

-- the linter does not see the use of `stepped` in `decreasing_by`
set_option linter.unusedVariables false in
/-- `diffLoop` from the top of a round: the `diffIntervals` and unvisited
intervals at the break, or `none` for the panic. -/
def run (st : DiffLoop) : Option (List Interval × List Interval) :=
  match stepped : st.step with
  | .next next => run next
  | .exit diffIntervals intervals => some (diffIntervals, intervals)
  | .panic => none
termination_by st.remaining
decreasing_by exact remaining_step stepped

/-! ### The panic is unreachable -/

theorem advance_ne_panic (done : List Interval) (st : DiffLoop) : advance done st ≠ .panic := by
  unfold advance
  split <;> simp

theorem advanceOther_ne_panic (current : Interval) (done : List Interval) (st : DiffLoop) :
    advanceOther current done st ≠ .panic := by
  unfold advanceOther
  split <;> simp

/-- The six cases cover every pair of intervals: once the current interval
neither ends before the other interval nor starts after it, it starts before the
other or not, and ends after it or not. -/
theorem step_ne_panic (st : DiffLoop) : st.step ≠ .panic := by
  unfold step
  dsimp only
  split_ifs with before after inside overlapsEnd overlapsStart straddles
  · exact advance_ne_panic _ _
  · exact advanceOther_ne_panic _ _ _
  · exact advance_ne_panic _ _
  · exact advance_ne_panic _ _
  · exact advanceOther_ne_panic _ _ _
  · exact advanceOther_ne_panic _ _ _
  · exfalso
    omega

theorem run_isSome (st : DiffLoop) :
    ∃ diffIntervals intervals, st.run = some (diffIntervals, intervals) := by
  fun_induction run st with
  | case1 st next stepped inductionHypothesis => exact inductionHypothesis
  | case2 st diffIntervals intervals stepped => exact ⟨diffIntervals, intervals, rfl⟩
  | case3 st stepped => exact absurd stepped (step_ne_panic st)

/-- A round that goes on leaves the outcome to the next round. -/
theorem run_of_next {st next : DiffLoop} (stepped : st.step = .next next) : st.run = next.run := by
  rw [run]
  split <;> simp_all

/-- A round that breaks gives the loop's outcome. -/
theorem run_of_exit {st : DiffLoop} {diffIntervals intervals : List Interval}
    (stepped : st.step = .exit diffIntervals intervals) :
    st.run = some (diffIntervals, intervals) := by
  rw [run]
  split <;> simp_all

/-! ### The loop invariant -/

section Invariant

variable (target : ℤ → Prop)

/-- What holds at the top of every round, for the set `target` the loop is to
compute: the receiver's intervals, done and still in play, are sorted and
disjoint in that order, and so are the other set's intervals in play; `target`
is what is done, plus the receiver's intervals in play minus the other set's. -/
structure Invariant (st : DiffLoop) : Prop where
  ordered : Ordered (st.done.reverse ++ st.current :: st.intervals)
  otherOrdered : Ordered (st.otherInterval :: st.otherIntervals)
  denotes : ∀ x, target x ↔ Denotes st.done x ∨
    ((st.current.Mem x ∨ Denotes st.intervals x) ∧
      ¬ (st.otherInterval.Mem x ∨ Denotes st.otherIntervals x))

/-- What a round establishes: the invariant for the next round, or at the break
a sorted, disjoint `diffIntervals` followed by the unvisited intervals that
denotes `target`. -/
def Establishes : DiffStep → Prop
  | .next st => st.Invariant target
  | .exit diffIntervals intervals =>
    Ordered (diffIntervals ++ intervals) ∧ ∀ x, target x ↔ Denotes (diffIntervals ++ intervals) x
  | .panic => False

variable {target}

theorem Invariant.laterGt {st : DiffLoop} (invariant : st.Invariant target) {x : ℤ}
    (later : Denotes st.intervals x) : st.current.stop < x :=
  (Ordered.append_iff.mp invariant.ordered).2.1.later_point_gt later

theorem Invariant.othersGt {st : DiffLoop} (invariant : st.Invariant target) {x : ℤ}
    (later : Denotes st.otherIntervals x) : st.otherInterval.stop < x :=
  invariant.otherOrdered.later_point_gt later

/-- `advance()` once the current interval, which ends within the other interval,
has given way to `pieces`: exactly its points outside the other interval. None
of them is in a later interval of the other set. -/
theorem advance_establishes {st : DiffLoop} (invariant : st.Invariant target)
    (pieces : List Interval) (piecesOrdered : Ordered pieces)
    (within : ∀ piece ∈ pieces, st.current.Covers piece)
    (notPast : st.current.stop ≤ st.otherInterval.stop)
    (exact : ∀ x, Denotes pieces x ↔ st.current.Mem x ∧ ¬ st.otherInterval.Mem x) :
    Establishes target (advance (pieces.reverse ++ st.done) st) := by
  have ordered := invariant.ordered.replace_within piecesOrdered within
  have denotes : ∀ x, target x ↔ Denotes (pieces.reverse ++ st.done) x ∨
      (Denotes st.intervals x ∧ ¬ (st.otherInterval.Mem x ∨ Denotes st.otherIntervals x)) := by
    intro x
    have cut := exact x
    have othersClear : st.current.Mem x → ¬ Denotes st.otherIntervals x := fun inside later => by
      have beyond := invariant.othersGt later
      have := inside.2
      omega
    rw [invariant.denotes x, denotes_append, denotes_reverse]
    tauto
  obtain ⟨current, done, intervals, other, others⟩ := st
  cases intervals with
  | nil =>
    refine ⟨by simpa using ordered, fun x => ?_⟩
    rw [denotes x]
    simp [or_comm]
  | cons iv rest =>
    refine ⟨by simpa using ordered, invariant.otherOrdered, fun x => ?_⟩
    rw [denotes x, denotes_cons]

/-- `advanceOther()` once the current interval, which ends past the other
interval, has given way to `pieces` and then `next`: exactly its points outside
the other interval, with the `pieces` before it. -/
theorem advanceOther_establishes {st : DiffLoop} (invariant : st.Invariant target)
    (pieces : List Interval) (next : Interval) (piecesOrdered : Ordered (pieces ++ [next]))
    (within : ∀ piece ∈ pieces ++ [next], st.current.Covers piece)
    (past : st.otherInterval.stop < st.current.stop)
    (piecesBefore : ∀ piece ∈ pieces, piece.stop < st.otherInterval.start)
    (exact : ∀ x, st.current.Mem x ∧ ¬ st.otherInterval.Mem x ↔ Denotes pieces x ∨ next.Mem x) :
    Establishes target (advanceOther next (pieces.reverse ++ st.done) st) := by
  have ordered := invariant.ordered.replace_within piecesOrdered within
  have otherNonempty := (Ordered.cons_iff.mp invariant.otherOrdered).1
  unfold Interval.Nonempty at otherNonempty
  have denotes : ∀ x, target x ↔ Denotes (pieces.reverse ++ st.done) x ∨
      ((next.Mem x ∨ Denotes st.intervals x) ∧ ¬ Denotes st.otherIntervals x) := by
    intro x
    have cut := exact x
    have piecesClear : Denotes pieces x → ¬ Denotes st.otherIntervals x := by
      rintro ⟨piece, isPiece, inside⟩ later
      have beyond := invariant.othersGt later
      have before := piecesBefore piece isPiece
      have := inside.2
      omega
    have intervalsClear : Denotes st.intervals x → ¬ st.otherInterval.Mem x := by
      intro later inside
      have beyond := invariant.laterGt later
      have := inside.2
      omega
    rw [invariant.denotes x, denotes_append, denotes_reverse]
    tauto
  obtain ⟨current, done, intervals, other, others⟩ := st
  cases others with
  | nil =>
    refine ⟨by simpa using ordered, fun x => ?_⟩
    rw [denotes x]
    simp only [denotes_nil, not_false_eq_true, and_true, List.reverse_cons, denotes_append,
      denotes_reverse, denotes_cons, or_false]
    tauto
  | cons other' rest =>
    refine ⟨by simpa using ordered, invariant.otherOrdered.tail, fun x => ?_⟩
    rw [denotes x, denotes_cons]

/-- Each of the six cases keeps the invariant: it cuts from the current interval
exactly its points inside the other interval, and moves on past whichever of the
two ends first. -/
theorem step_establishes {st : DiffLoop} (invariant : st.Invariant target) :
    Establishes target st.step := by
  have currentNonempty := (Ordered.cons_iff.mp (Ordered.append_iff.mp invariant.ordered).2.1).1
  have otherNonempty := (Ordered.cons_iff.mp invariant.otherOrdered).1
  unfold Interval.Nonempty at currentNonempty otherNonempty
  unfold step
  dsimp only
  split_ifs with before after inside overlapsEnd overlapsStart straddles
  · -- [1, 2] - [3, 5]: all of the interval is in the difference
    refine advance_establishes invariant [st.current] ?_ ?_ (by omega) fun x => ?_
    · simpa [Interval.Nonempty] using currentNonempty
    · simp [Interval.Covers]
    · simp only [denotes_cons, denotes_nil, or_false, Interval.Mem]
      omega
  · -- [3, 5] - [1, 2]: none of the other interval is left to cut
    refine advanceOther_establishes invariant [] st.current ?_ ?_ (by omega) (by simp)
      fun x => ?_
    · simpa [Interval.Nonempty] using currentNonempty
    · simp [Interval.Covers]
    · simp only [denotes_nil, false_or, Interval.Mem]
      omega
  · -- [3, 4] - [1, 5]: none of the interval is in the difference
    refine advance_establishes invariant [] ordered_nil (by simp) inside.2 fun x => ?_
    simp only [denotes_nil, false_iff, not_and, Interval.Mem]
    omega
  · -- [1, 4] - [3, 5]: the part before the other interval is
    refine advance_establishes invariant [⟨st.current.start, st.otherInterval.start - 1⟩]
      ?_ ?_ overlapsEnd.2.2 fun x => ?_
    · simp only [ordered_singleton, Interval.Nonempty]
      omega
    · simp only [List.mem_singleton, forall_eq, Interval.Covers]
      omega
    · simp only [denotes_cons, denotes_nil, or_false, Interval.Mem]
      omega
  · -- [3, 7] - [1, 5]: the part after the other interval is
    refine advanceOther_establishes invariant [] ⟨st.otherInterval.stop + 1, st.current.stop⟩
      ?_ ?_ overlapsStart.2.2 (by simp) fun x => ?_
    · simp only [List.nil_append, ordered_singleton, Interval.Nonempty]
      omega
    · simp only [List.nil_append, List.mem_singleton, forall_eq, Interval.Covers]
      omega
    · simp only [denotes_nil, false_or, Interval.Mem]
      omega
  · -- [1, 7] - [3, 4]: the parts before and after the other interval are
    refine advanceOther_establishes invariant [⟨st.current.start, st.otherInterval.start - 1⟩]
      ⟨st.otherInterval.stop + 1, st.current.stop⟩ ?_ ?_ straddles.2 ?_ fun x => ?_
    · simp [Ordered.cons_iff, Interval.Nonempty, Before]
      omega
    · simp [Interval.Covers]
      omega
    · simp only [List.mem_singleton, forall_eq]
      omega
    · simp only [denotes_cons, denotes_nil, or_false, Interval.Mem]
      omega
  · -- the six cases cover every pair of intervals
    exfalso
    omega

/-- From a state that satisfies the invariant, the loop breaks with a sorted,
disjoint list of intervals that denotes `target`. -/
theorem run_establishes {st : DiffLoop} (invariant : st.Invariant target) :
    ∃ diffIntervals intervals, st.run = some (diffIntervals, intervals) ∧
      Ordered (diffIntervals ++ intervals) ∧
        ∀ x, target x ↔ Denotes (diffIntervals ++ intervals) x := by
  fun_induction run st with
  | case1 st next stepped inductionHypothesis =>
    have established := step_establishes invariant
    rw [stepped] at established
    exact inductionHypothesis established
  | case2 st diffIntervals intervals stepped =>
    have established := step_establishes invariant
    rw [stepped] at established
    exact ⟨diffIntervals, intervals, rfl, established⟩
  | case3 st stepped =>
    have established := step_establishes invariant
    rw [stepped] at established
    exact established.elim

end Invariant

end DiffLoop

/-- The loop over the receiver for one SID, given the other set's intervals for
it (`none` when the other set lacks the SID). The outcome `none` leaves the SID
out of the result: the `continue` before anything is stored, and `delete`. -/
def differenceIntervals (intervals : List Interval) :
    Option (List Interval) → Except String (Option (List Interval))
  | none => .ok (some intervals)
  | some otherIntervals =>
    match intervals, otherIntervals with
    | [], _ => .ok none
    -- `advance()` has moved the first interval to `diffIntervals` already
    | _ :: rest, [] => .ok (some rest)
    | iv :: rest, other :: otherRest =>
      match DiffLoop.run ⟨iv, [], rest, other, otherRest⟩ with
      | none => .error "This should never happen."
      | some (diffIntervals, intervals) =>
        -- the receiver's intervals past the other set's last are added whole
        let diffIntervals := diffIntervals ++ intervals
        if diffIntervals.isEmpty then .ok none else .ok (some diffIntervals)

/-- `Mysql56GTIDSet.Difference`: each SID of the receiver in turn, stored into a
fresh set. The SIDs are independent, so the order of Go's map iteration does not
matter. A nil set is the empty set here; the early `return set` for a nil
operand gives the same entries as the loop would. -/
def Mysql56GTIDSet.difference (set other : Mysql56GTIDSet) : Except String Mysql56GTIDSet :=
  storeEach (fun sid intervals => differenceIntervals intervals (other.lookup sid)) set.entries ∅

/-! ### One SID -/

theorem differenceIntervals_ok (intervals : List Interval)
    (otherIntervals : Option (List Interval)) :
    ∃ outcome, differenceIntervals intervals otherIntervals = .ok outcome := by
  match intervals, otherIntervals with
  | _, none => exact ⟨_, rfl⟩
  | [], some _ => exact ⟨_, rfl⟩
  | _ :: _, some [] => exact ⟨_, rfl⟩
  | iv :: rest, some (other :: otherRest) =>
    obtain ⟨diffIntervals, intervals, ran⟩ := DiffLoop.run_isSome ⟨iv, [], rest, other, otherRest⟩
    simp only [differenceIntervals, ran]
    split
    · exact ⟨_, rfl⟩
    · exact ⟨_, rfl⟩

/-- The loop for one SID on sorted, disjoint lists, unless the other list is
empty while ours is not: the intervals stored denote exactly ours minus the
other's, are sorted and disjoint, and are empty only where ours were empty and
the other set lacks the SID. -/
theorem differenceIntervals_exact {intervals : List Interval}
    {otherIntervals outcome : Option (List Interval)} (ordered : Ordered intervals)
    (otherOrdered : Ordered (otherIntervals.getD []))
    (notEmptied : otherIntervals = some [] → intervals = [])
    (ran : differenceIntervals intervals otherIntervals = .ok outcome) :
    Ordered (outcome.getD []) ∧
      (∀ x, Denotes (outcome.getD []) x ↔
        Denotes intervals x ∧ ¬ Denotes (otherIntervals.getD []) x) ∧
      (outcome = some [] → otherIntervals = none ∧ intervals = []) := by
  match intervals, otherIntervals with
  | intervals, none =>
    cases ran
    exact ⟨ordered, by simp, fun stored => ⟨rfl, Option.some.inj stored⟩⟩
  | [], some otherIntervals =>
    cases ran
    exact ⟨ordered_nil, by simp, fun stored => by cases stored⟩
  | _ :: _, some [] => cases notEmptied rfl
  | iv :: rest, some (other :: otherRest) =>
    -- the loop starts with `diffIntervals = [iv]` and nothing done
    have initial : DiffLoop.Invariant
        (fun x => Denotes (iv :: rest) x ∧ ¬ Denotes (other :: otherRest) x)
        ⟨iv, [], rest, other, otherRest⟩ :=
      ⟨by simpa using ordered, otherOrdered, fun x => by simp⟩
    obtain ⟨diffIntervals, intervals, looped, resultOrdered, denotes⟩ :=
      DiffLoop.run_establishes initial
    simp only [differenceIntervals, looped] at ran
    split at ran
    · -- nothing is left: the SID is deleted
      rename_i empty
      cases ran
      rw [List.isEmpty_iff] at empty
      rw [empty] at denotes
      exact ⟨ordered_nil, fun x => by simpa using (denotes x).symm, fun stored => by cases stored⟩
    · rename_i nonempty
      cases ran
      refine ⟨resultOrdered, fun x => (denotes x).symm, fun stored => ?_⟩
      rw [Option.some.injEq] at stored
      simp [stored] at nonempty

/-! ### The whole set -/

/-- `Difference` never reaches its panic, whatever the two sets. -/
theorem difference_ok (set other : Mysql56GTIDSet) : ∃ result, set.difference other = .ok result :=
  storeEach_ok _ (fun sid intervals => differenceIntervals_ok intervals (other.lookup sid))
    set.entries ∅

/-- Each SID of the result holds what the loop for that SID stored, and the
result lacks the SIDs the receiver lacks. -/
theorem difference_lookup {set other result : Mysql56GTIDSet}
    (ran : set.difference other = .ok result) (sid : SID) :
    (∃ intervals, set.lookup sid = some intervals ∧
        differenceIntervals intervals (other.lookup sid) = .ok (result.lookup sid)) ∨
      (set.lookup sid = none ∧ result.lookup sid = none) :=
  lookup_storeEach _ set.nodupKeys ran sid

section Exact

variable {set other result : Mysql56GTIDSet} (ran : set.difference other = .ok result)
  (ordered : ∀ sid, Ordered ((set.lookup sid).getD []))
  (otherOrdered : ∀ sid, Ordered ((other.lookup sid).getD []))
  (notEmptied : ∀ sid, other.lookup sid = some [] → (set.lookup sid).getD [] = [])
include ran ordered otherOrdered notEmptied

/-- What the loop stores for each SID, read through `differenceIntervals_exact`. -/
theorem difference_lookup_exact (sid : SID) :
    Ordered ((result.lookup sid).getD []) ∧
      (∀ x, Denotes ((result.lookup sid).getD []) x ↔
        Denotes ((set.lookup sid).getD []) x ∧ ¬ Denotes ((other.lookup sid).getD []) x) ∧
      (result.lookup sid = some [] → other.lookup sid = none ∧ set.lookup sid = some []) := by
  rcases difference_lookup ran sid with ⟨intervals, found, stored⟩ | ⟨absent, resultAbsent⟩
  · have sidOrdered : Ordered intervals := by simpa [found] using ordered sid
    have sidNotEmptied : other.lookup sid = some [] → intervals = [] := fun emptied => by
      simpa [found] using notEmptied sid emptied
    rw [found, Option.getD_some]
    obtain ⟨storedOrdered, denotes, empty⟩ :=
      differenceIntervals_exact sidOrdered (otherOrdered sid) sidNotEmptied stored
    exact ⟨storedOrdered, denotes, fun stored => by
      obtain ⟨otherAbsent, emptied⟩ := empty stored
      exact ⟨otherAbsent, by rw [emptied]⟩⟩
  · rw [absent, resultAbsent]
    exact ⟨ordered_nil, by simp, fun stored => by cases stored⟩

/-- On sorted, disjoint interval lists, `Difference` denotes exactly the GTIDs
of the receiver that are not in the other set, provided the other set maps none
of the receiver's SIDs with intervals to an empty list. -/
theorem difference_denotes (sid : SID) (n : ℤ) :
    result.Denotes sid n ↔ set.Denotes sid n ∧ ¬ other.Denotes sid n :=
  (difference_lookup_exact ran ordered otherOrdered notEmptied sid).2.1 n

/-- Under the same conditions the result's lists are sorted and disjoint. -/
theorem difference_ordered (sid : SID) : Ordered ((result.lookup sid).getD []) :=
  (difference_lookup_exact ran ordered otherOrdered notEmptied sid).1

/-- Under the same conditions the result has an empty list only where the
receiver has one for a SID the other set lacks. -/
theorem difference_ne_nil (noEmpty : ∀ sid, set.lookup sid ≠ some []) (sid : SID) :
    result.lookup sid ≠ some [] := fun stored =>
  noEmpty sid ((difference_lookup_exact ran ordered otherOrdered notEmptied sid).2.2 stored).2

end Exact

/-! ### Sets of sorted, disjoint, nonempty lists -/

/-- Every list nonempty, sorted and disjoint: what both operands of `Difference`
need for it to be exact, and what its result keeps. -/
def Mysql56GTIDSet.Tidy (set : Mysql56GTIDSet) : Prop :=
  ∀ entry ∈ set.entries, entry.2 ≠ [] ∧ Ordered entry.2

instance (set : Mysql56GTIDSet) : Decidable set.Tidy :=
  inferInstanceAs (Decidable (∀ entry ∈ set.entries, _))

theorem Mysql56GTIDSet.Tidy.lookup {set : Mysql56GTIDSet} (tidy : set.Tidy) (sid : SID) :
    Ordered ((set.lookup sid).getD []) ∧ set.lookup sid ≠ some [] := by
  cases found : set.lookup sid with
  | none => exact ⟨ordered_nil, nofun⟩
  | some intervals =>
    obtain ⟨nonempty, ordered⟩ := tidy ⟨sid, intervals⟩ (AList.mem_lookup_iff.mp found)
    exact ⟨ordered, fun same => nonempty (Option.some.inj same)⟩

/-- `Difference` of tidy sets is tidy, and denotes exactly the receiver's GTIDs
that the other set lacks. -/
theorem Mysql56GTIDSet.Tidy.difference {set other result : Mysql56GTIDSet} (tidy : set.Tidy)
    (otherTidy : other.Tidy) (ran : set.difference other = .ok result) :
    result.Tidy ∧ ∀ sid n, result.Denotes sid n ↔ set.Denotes sid n ∧ ¬ other.Denotes sid n := by
  have ordered := fun sid => (tidy.lookup sid).1
  have otherOrdered := fun sid => (otherTidy.lookup sid).1
  -- the other set maps no SID to an empty list
  have notEmptied : ∀ sid, other.lookup sid = some [] → (set.lookup sid).getD [] = [] :=
    fun sid emptied => absurd emptied (otherTidy.lookup sid).2
  refine ⟨fun entry member => ?_, difference_denotes ran ordered otherOrdered notEmptied⟩
  have found : result.lookup entry.1 = some entry.2 := AList.mem_lookup_iff.mpr member
  have stored := difference_ordered ran ordered otherOrdered notEmptied entry.1
  have nonempty := difference_ne_nil ran ordered otherOrdered notEmptied
    (fun sid => (tidy.lookup sid).2) entry.1
  rw [found] at stored nonempty
  exact ⟨fun empty => nonempty (by rw [empty]), stored⟩

/-! ### A SID the other set maps to no intervals -/

/-- The other set maps the SID of `1-5` to an empty list. The receiver's list is
sorted and disjoint, and the other's is empty; `advance()` moves `1-5` to
`diffIntervals`, `advanceOther()` finds nothing, and the early exit stores what
is left of the receiver's list: nothing. The result maps the SID to an empty
list and denotes no GTID, though the difference is `1..5`. -/
theorem difference_drops_first_interval :
    Ordered [⟨1, 5⟩] ∧
      Mysql56GTIDSet.difference (AList.insert exampleSID [⟨1, 5⟩] ∅)
          (AList.insert exampleSID [] ∅) = .ok (AList.insert exampleSID [] ∅) ∧
      (∀ n, 1 ≤ n → n ≤ 5 →
        Mysql56GTIDSet.Denotes (AList.insert exampleSID [⟨1, 5⟩] ∅) exampleSID n ∧
          ¬ Mysql56GTIDSet.Denotes (AList.insert exampleSID [] ∅) exampleSID n) ∧
      ∀ sid n, ¬ Mysql56GTIDSet.Denotes (AList.insert exampleSID [] ∅) sid n := by
  refine ⟨by decide, rfl, fun n atLeast atMost => ?_, fun sid n => ?_⟩
  · simp only [Mysql56GTIDSet.Denotes, AList.lookup_insert, Option.getD_some, denotes_cons,
      denotes_nil, or_false, Interval.Mem, not_false_eq_true, and_true]
    omega
  · by_cases same : sid = exampleSID
    · subst same
      simp only [Mysql56GTIDSet.Denotes, AList.lookup_insert, Option.getD_some, denotes_nil,
        not_false_eq_true]
    · simp only [Mysql56GTIDSet.Denotes, AList.lookup_insert_ne same, AList.lookup_empty,
        Option.getD_none, denotes_nil, not_false_eq_true]

end Vitess.Replication
