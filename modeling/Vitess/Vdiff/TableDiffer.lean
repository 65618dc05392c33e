import Vitess.Data.MergeCount

/-!
# The merge loop of a VDiff table diff

`tableDiffer.diff` of `go/vt/vttablet/tabletmanager/vdiff/table_differ.go`. The
source and target executors return rows in primary-key order; the loop holds a
row back (`advanceSource`/`advanceTarget` false) while the other side catches
up, counts extra rows on each side, compares the non-PK columns of rows with the
same PK, and drains the other stream when one stream ends.

`tableDiffer.compare` on `comparePKs` is the order of the PK values, a linear
order `pk` here; on `compareCols` it is `sameCols`. The loop is stopped from
outside at the top of an iteration (row limit, `stop` channel, cancellation);
`runLoop n` runs `n` iterations and then stops, which is all three. The
deferred `updateTableProgress` then saves the report and `lastProcessedRow`, the
source row current at the top of that iteration. Diff samples, the mismatch
flag and the periodic progress write do not change the counters and are left
out.
-/

namespace Vitess.Vdiff

open Vitess.MergeCount

/-- The counters of `DiffReport`. -/
structure DiffReport where
  ProcessedRows : ℕ
  MatchingRows : ℕ
  MismatchedRows : ℕ
  ExtraRowsSource : ℕ
  ExtraRowsTarget : ℕ
  deriving DecidableEq, Repr

/-- A report with a tally of rows added: every tallied row is one processed row. -/
def DiffReport.addTally (dr : DiffReport) (counts : Tally) : DiffReport where
  ProcessedRows := dr.ProcessedRows + (counts.matching + counts.mismatched + counts.onlyLeft +
    counts.onlyRight)
  MatchingRows := dr.MatchingRows + counts.matching
  MismatchedRows := dr.MismatchedRows + counts.mismatched
  ExtraRowsSource := dr.ExtraRowsSource + counts.onlyLeft
  ExtraRowsTarget := dr.ExtraRowsTarget + counts.onlyRight

/-- The variables of the loop: what each executor has not returned yet, the
current rows, the advance flags and the report. -/
structure LoopState (Row : Type*) where
  source : List Row
  target : List Row
  sourceRow : Option Row
  targetRow : Option Row
  advanceSource : Bool
  advanceTarget : Bool
  dr : DiffReport

/-- Where an iteration leaves the loop. -/
inductive Iteration (Row : Type*) where
  | returned (dr : DiffReport)
  | continues (st : LoopState Row)

/-- How a run of `diff` ends: every row compared, or stopped with what the
deferred progress update saves. -/
inductive Outcome (Row : Type*) where
  | finished (dr : DiffReport)
  | stopped (dr : DiffReport) (lastProcessedRow : Option Row)
  deriving DecidableEq, Repr

/-- The row the loop uses this iteration: `next()` of the executor when it
advances (nil once the stream has ended), else the row it holds. -/
def fetch {Row : Type*} (advance : Bool) (held : Option Row) (rows : List Row) :
    Option Row × List Row :=
  if advance then (rows.head?, rows.tail) else (held, rows)

section Loop

variable {Row Key : Type*} [LinearOrder Key] (pk : Row → Key) (sameCols : Row → Row → Bool)

/-- The body of the loop after the rows are fetched. -/
def compareRows (dr : DiffReport) (source target : List Row) :
    Option Row → Option Row → Iteration Row
  | none, none => .returned dr
  | none, some _ =>
    -- drain the target: the current row and all after it are extra
    .returned { dr with ExtraRowsTarget := dr.ExtraRowsTarget + (1 + target.length),
                        ProcessedRows := dr.ProcessedRows + (1 + target.length) }
  | some _, none =>
    .returned { dr with ExtraRowsSource := dr.ExtraRowsSource + (1 + source.length),
                        ProcessedRows := dr.ProcessedRows + (1 + source.length) }
  | some s, some t =>
    let dr := { dr with ProcessedRows := dr.ProcessedRows + 1 }
    match compare (pk s) (pk t) with
    | .lt => .continues ⟨source, target, some s, some t, true, false,
        { dr with ExtraRowsSource := dr.ExtraRowsSource + 1 }⟩
    | .gt => .continues ⟨source, target, some s, some t, false, true,
        { dr with ExtraRowsTarget := dr.ExtraRowsTarget + 1 }⟩
    | .eq =>
      let dr := if sameCols s t then { dr with MatchingRows := dr.MatchingRows + 1 }
        else { dr with MismatchedRows := dr.MismatchedRows + 1 }
      .continues ⟨source, target, some s, some t, true, true, dr⟩

/-- One iteration of the loop past the stop checks and the row limit. -/
def iteration (st : LoopState Row) : Iteration Row :=
  let sourceFetch := fetch st.advanceSource st.sourceRow st.source
  let targetFetch := fetch st.advanceTarget st.targetRow st.target
  compareRows pk sameCols st.dr sourceFetch.2 targetFetch.2 sourceFetch.1 targetFetch.1

/-- `n` iterations, then a stop at the top of the next one. -/
def runLoop : ℕ → LoopState Row → Outcome Row
  | 0, st => .stopped st.dr st.sourceRow
  | n + 1, st =>
    match iteration pk sameCols st with
    | .returned dr => .finished dr
    | .continues next => runLoop n next

/-- The loop's state on entry: the report read back from `_vt.vdiff_table` and
both executors about to be read. -/
def startState (dr : DiffReport) (source target : List Row) : LoopState Row :=
  ⟨source, target, none, none, true, true, dr⟩

/-- The rows a stream returns when restarted from a saved `lastpk`: those
strictly after it. -/
def rowsAfter (lastPK : Option Key) (rows : List Row) : List Row :=
  match lastPK with
  | none => rows
  | some k => rows.filter fun r => k < pk r

end Loop

end Vitess.Vdiff
