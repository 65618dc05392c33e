import Vitess.Vdiff.TableDiffer
import Mathlib.Data.Nat.Basic

/-!
# What a run of the table diff counts

The loop invariant `Accounts` says that the report plus the tally of the rows not
yet counted (a held row and the rest of its stream, `pending`) is the final
report. `compareRows_progress` checks one iteration against it, using the tally
lemmas of `Vitess.MergeCount` for the three outcomes of the PK comparison and
for the drains; `runLoop_finished` lifts it to a whole run. An uninterrupted run
therefore reports exactly the tally of the two streams
(`diff_counts_every_row`).

A stopped run is a different matter: the deferred progress update saves the
source row current at the top of the stopping iteration, and after a
target-only step that row is held, not yet counted. `resume_skips_held_source_row`
shows a resumed run then never counts it.
-/

namespace Vitess.Vdiff

open Vitess.MergeCount

section Invariant

variable {Row Key : Type*} [LinearOrder Key] (pk : Row → Key) (sameCols : Row → Row → Bool)

/-- The rows of one side not yet counted: the held row, then the rest of the
stream. -/
def pending (advance : Bool) (held : Option Row) (rows : List Row) : List Row :=
  (if advance then [] else held.toList) ++ rows

/-- How many rows are still to be counted. -/
def pendingCount (st : LoopState Row) : ℕ :=
  (pending st.advanceSource st.sourceRow st.source).length +
    (pending st.advanceTarget st.targetRow st.target).length

/-- The loop invariant: the report plus the tally of the pending rows is `total`,
the pending rows of each side are still in PK order, and a side that does not
advance holds a row. -/
structure Accounts (total : DiffReport) (st : LoopState Row) : Prop where
  counted : st.dr.addTally (tally pk sameCols (pending st.advanceSource st.sourceRow st.source)
    (pending st.advanceTarget st.targetRow st.target)) = total
  sourceAscending : Ascending pk (pending st.advanceSource st.sourceRow st.source)
  targetAscending : Ascending pk (pending st.advanceTarget st.targetRow st.target)
  sourceHeld : st.advanceSource = false → st.sourceRow.isSome
  targetHeld : st.advanceTarget = false → st.targetRow.isSome

/-- What an iteration must do: a return reports `total`, a continuation keeps
the invariant with fewer pending rows than `before`. -/
def Progress (total : DiffReport) (before : ℕ) : Iteration Row → Prop
  | .returned dr => dr = total
  | .continues next => Accounts pk sameCols total next ∧ pendingCount next < before

end Invariant

theorem addTally_add (dr : DiffReport) (counts extra : Tally) :
    dr.addTally (counts + extra) = (dr.addTally extra).addTally counts := by
  simp only [DiffReport.addTally, add_matching, add_mismatched, add_onlyLeft, add_onlyRight,
    DiffReport.mk.injEq]
  omega

/-- The fetched row and what the executor still holds are the pending rows. -/
theorem fetch_pending {Row : Type*} (advance : Bool) (held : Option Row) (rows : List Row) :
    (fetch advance held rows).1.toList ++ (fetch advance held rows).2 = pending advance held rows := by
  cases advance
  · rfl
  · cases rows <;> rfl

/-- A side whose fetch finds no row has ended: its executor holds nothing more. -/
theorem fetch_ended {Row : Type*} {advance : Bool} {held : Option Row} {rows : List Row}
    (heldPresent : advance = false → held.isSome) :
    (fetch advance held rows).1 = none → (fetch advance held rows).2 = [] := by
  cases advance
  · intro noRow
    simp [fetch] at noRow
    simp [noRow] at heldPresent
  · cases rows <;> simp [fetch]

section Steps

variable {Row Key : Type*} [LinearOrder Key] {pk : Row → Key} {sameCols : Row → Row → Bool}

/-- One iteration on the fetched rows keeps the invariant. -/
theorem compareRows_progress {total dr : DiffReport} {source target : List Row}
    {sourceRow targetRow : Option Row}
    (counted : dr.addTally (tally pk sameCols (sourceRow.toList ++ source)
      (targetRow.toList ++ target)) = total)
    (sourceAscending : Ascending pk (sourceRow.toList ++ source))
    (targetAscending : Ascending pk (targetRow.toList ++ target))
    (sourceEnded : sourceRow = none → source = []) (targetEnded : targetRow = none → target = []) :
    Progress pk sameCols total ((sourceRow.toList ++ source).length + (targetRow.toList ++ target).length)
      (compareRows pk sameCols dr source target sourceRow targetRow) := by
  cases sourceRow with
  | none =>
    have noSource := sourceEnded rfl
    subst noSource
    cases targetRow with
    | none =>
      have noTarget := targetEnded rfl
      subst noTarget
      simpa [compareRows, Progress, tally_nil_left, DiffReport.addTally] using counted
    | some t =>
      -- the target drain counts the current row and the rest of the stream
      rw [← counted]
      simp [compareRows, Progress, tally_nil_left, DiffReport.addTally]
      omega
  | some s =>
    cases targetRow with
    | none =>
      have noTarget := targetEnded rfl
      subst noTarget
      rw [← counted]
      simp [compareRows, Progress, tally_nil_right, DiffReport.addTally]
      omega
    | some t =>
      simp only [Option.toList_some, List.singleton_append] at counted sourceAscending targetAscending
      rcases lt_trichotomy (pk s) (pk t) with below | sameKey | above
      · -- source-only row: the target row is held
        rw [tally_cons_lt targetAscending below, addTally_add] at counted
        simp only [compareRows, compare_lt_iff_lt.mpr below, Progress]
        refine ⟨⟨counted, sourceAscending.of_cons, targetAscending, nofun, fun _ => rfl⟩, ?_⟩
        simp [pendingCount, pending]
      · rw [tally_cons_eq sourceAscending targetAscending sameKey] at counted
        simp only [compareRows, compare_eq_iff_eq.mpr sameKey, Progress]
        cases colsAgree : sameCols s t
        · simp only [colsAgree, Bool.false_eq_true, if_false, addTally_add] at counted
          refine ⟨⟨counted, sourceAscending.of_cons, targetAscending.of_cons, nofun, nofun⟩, ?_⟩
          simp [pendingCount, pending]
          omega
        · simp only [colsAgree, if_true, addTally_add] at counted
          refine ⟨⟨counted, sourceAscending.of_cons, targetAscending.of_cons, nofun, nofun⟩, ?_⟩
          simp [pendingCount, pending]
          omega
      · -- target-only row: the source row is held
        rw [tally_cons_gt sourceAscending above, addTally_add] at counted
        simp only [compareRows, compare_gt_iff_gt.mpr above, Progress]
        refine ⟨⟨counted, sourceAscending, targetAscending.of_cons, fun _ => rfl, nofun⟩, ?_⟩
        simp [pendingCount, pending]

/-- Every iteration keeps the invariant, or returns the total. -/
theorem iteration_progress {total : DiffReport} {st : LoopState Row}
    (accounts : Accounts pk sameCols total st) :
    Progress pk sameCols total (pendingCount st) (iteration pk sameCols st) := by
  have sourceRows := fetch_pending st.advanceSource st.sourceRow st.source
  have targetRows := fetch_pending st.advanceTarget st.targetRow st.target
  have unfolded : iteration pk sameCols st =
      compareRows pk sameCols st.dr (fetch st.advanceSource st.sourceRow st.source).2
        (fetch st.advanceTarget st.targetRow st.target).2
        (fetch st.advanceSource st.sourceRow st.source).1
        (fetch st.advanceTarget st.targetRow st.target).1 := rfl
  have counted := accounts.counted
  have sourceAscending := accounts.sourceAscending
  have targetAscending := accounts.targetAscending
  rw [← sourceRows, ← targetRows] at counted
  rw [← sourceRows] at sourceAscending
  rw [← targetRows] at targetAscending
  rw [unfolded, pendingCount, ← sourceRows, ← targetRows]
  exact compareRows_progress counted sourceAscending targetAscending
    (fetch_ended accounts.sourceHeld) (fetch_ended accounts.targetHeld)

/-- A run with more iterations than pending rows finishes with the total. -/
theorem runLoop_finished {total : DiffReport} :
    ∀ (n : ℕ) (st : LoopState Row), Accounts pk sameCols total st → pendingCount st < n →
      runLoop pk sameCols n st = .finished total
  | 0, _, _, enough => absurd enough (Nat.not_lt_zero _)
  | n + 1, st, accounts, enough => by
    have progress := iteration_progress accounts
    simp only [runLoop]
    cases outcome : iteration pk sameCols st with
    | returned dr =>
      rw [outcome] at progress
      simp only [Progress] at progress
      rw [progress]
    | continues next =>
      rw [outcome] at progress
      obtain ⟨nextAccounts, fewer⟩ := progress
      exact runLoop_finished n next nextAccounts (by omega)

end Steps

/-- An uninterrupted diff of two streams in PK order adds to the saved report
exactly the tally of the streams: matching and mismatched rows for the PKs in
both, and the extra rows of each side. -/
theorem diff_counts_every_row {Row Key : Type*} [LinearOrder Key] (pk : Row → Key)
    (sameCols : Row → Row → Bool) (dr : DiffReport) {source target : List Row}
    (sourceAscending : Ascending pk source) (targetAscending : Ascending pk target)
    {n : ℕ} (enough : source.length + target.length < n) :
    runLoop pk sameCols n (startState dr source target) =
      .finished (dr.addTally (tally pk sameCols source target)) :=
  runLoop_finished n _ ⟨rfl, sourceAscending, targetAscending, nofun, nofun⟩ enough

/-- Rows `(pk, other columns)`; the non-PK columns agree when equal. -/
def sameSecond (a b : ℕ × ℕ) : Bool :=
  a.2 == b.2

/-- Source PKs `[2]`, target PKs `[1, 2]`. Uninterrupted, PK 2 is a match. A run
stopped after its first iteration has counted PK 1 as a target extra and holds
source row 2 uncounted, but saves `lastProcessedRow = 2`; resumed strictly after
PK 2 both streams are empty and PK 2 is never counted. -/
theorem resume_skips_held_source_row :
    runLoop Prod.fst sameSecond 4 (startState ⟨0, 0, 0, 0, 0⟩ [(2, 0)] [(1, 0), (2, 0)]) =
        .finished ⟨2, 1, 0, 0, 1⟩ ∧
      runLoop Prod.fst sameSecond 1 (startState ⟨0, 0, 0, 0, 0⟩ [(2, 0)] [(1, 0), (2, 0)]) =
        .stopped ⟨1, 0, 0, 0, 1⟩ (some (2, 0)) ∧
      runLoop Prod.fst sameSecond 4 (startState ⟨1, 0, 0, 0, 1⟩
          (rowsAfter Prod.fst (some 2) [(2, 0)]) (rowsAfter Prod.fst (some 2) [(1, 0), (2, 0)])) =
        .finished ⟨1, 0, 0, 0, 1⟩ := by
  decide

end Vitess.Vdiff
