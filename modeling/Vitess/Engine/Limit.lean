import Vitess.Go.Int64
import Vitess.Go.Slice
import Vitess.Go.Strconv
import Vitess.Sqltypes.Value

/-!
# LIMIT and OFFSET

The `Limit` primitive of `go/vt/vtgate/engine/limit.go`. Both paths evaluate the
count and the offset with `getIntFrom`, which accepts the integers of
`[0, math.MaxInt64]`, and pass the input the bind variable `__upper_limit` set to
`count + offset` in Go's 64-bit `int`.

`TryExecute` slices the input's rows with `count+offset` as the upper bound. When
the sum fits, it keeps the rows `offset .. offset+count` (`limitRows_of_fits`);
when it wraps, which `LIMIT 1, 9223372036854775807` makes it do, the bound is
negative, the test `count+offset <= len(result.Rows)` passes on every result, and
the slice expression panics (`limit_offset_sum_wraps`).

`TryStreamExecute` never forms the sum for slicing: its callback skips `offset`
rows and passes on `count` rows over the batches the input streams, then returns
`io.EOF`, which the primitive suppresses. `streamRun_spec` is its run lemma over
every split of the rows into batches.

The expressions are taken as evaluated (`none` when there is none), and the input
as the rows it returns for each `__upper_limit`, or the batches it streams. An
error of the evaluation, of the input or of the client's callback is passed on by
the source unchanged and is not modelled; of a result, only the rows are.
-/

namespace Vitess.Engine

open Vitess.Go Vitess.Sqltypes

variable {α : Type*}

/-- The errors of `getIntFrom`. -/
inductive LimitError where
  /-- `sqltypes.ErrIncompatibleTypeCast`: the value is not an integer. -/
  | incompatibleTypeCast
  /-- `requested limit is out of range: %v`, with the value's text. -/
  | outOfRange (raw : List Char)
  deriving DecidableEq, Repr

/-- `strconv.Atoi` of a 64-bit Go. Its fast path for fewer than 19 bytes accepts
and returns what `ParseInt(s, 10, 64)` does; `getIntFrom` discards the error. -/
def atoi (s : List Char) : Except NumError ℤ :=
  parseInt s 64

/-- `getIntFrom`: no expression or `NULL` is 0; otherwise an integer value whose
text `Atoi` reads as a non-negative number. -/
def getIntFrom (value : Option Value) : Except LimitError ℤ :=
  match value with
  | none => .ok 0
  | some value =>
    if value.isNull then .ok 0
    else if !IsIntegral value.typ then .error .incompatibleTypeCast
    else
      match atoi value.rawStr with
      | .ok count => if count < 0 then .error (.outOfRange value.rawStr) else .ok count
      | .error _ => .error (.outOfRange value.rawStr)

/-- `Limit.getCountAndOffset`. -/
def getCountAndOffset (count offset : Option Value) : Except LimitError (ℤ × ℤ) := do
  let count ← getIntFrom count
  let offset ← getIntFrom offset
  return (count, offset)

/-- `__upper_limit`: `int64(count + offset)`, the sum in Go's `int`. -/
def upperLimit (count offset : ℤ) : ℤ :=
  wrapInt64 (count + offset)

/-- The rows `TryExecute` keeps of the input's rows, with the sum as Go computes it. -/
def limitRows (count offset : ℤ) (rows : List α) : Except RuntimeError (List α) :=
  if wrapInt64 (count + offset) ≤ rows.length then sliceExpr rows offset (wrapInt64 (count + offset))
  else if offset ≤ rows.length then sliceExpr rows offset rows.length
  else .ok []

/-- How `Limit` ends without rows: an error of `getIntFrom`, or a panic. -/
inductive LimitFailure where
  | limit (err : LimitError)
  | panic (err : RuntimeError)
  deriving DecidableEq, Repr

/-- `Limit.TryExecute`, the input given as its result for each `__upper_limit`. -/
def tryExecute (count offset : Option Value) (input : ℤ → List α) : Except LimitFailure (List α) :=
  match getCountAndOffset count offset with
  | .error err => .error (.limit err)
  | .ok (count, offset) =>
    match limitRows count offset (input (upperLimit count offset)) with
    | .ok kept => .ok kept
    | .error err => .error (.panic err)

/-! ### What `getIntFrom` accepts -/

/-- `ParseInt` accepts nothing from `2^(bitSize-1)` up. -/
theorem parseInt_lt {s : List Char} {bitSize : ℕ} {z : ℤ} (parsed : parseInt s bitSize = .ok z) :
    z < 2 ^ (bitSize - 1) := by
  unfold parseInt at parsed
  split at parsed
  · cases parsed
  · dsimp only at parsed
    split at parsed
    · cases parsed
    · rename_i un _
      split at parsed
      · cases parsed
      · rename_i notAbove
        split at parsed
        · cases parsed
        · cases parsed
          split
          · have : (0 : ℤ) < 2 ^ (bitSize - 1) := by exact_mod_cast Nat.two_pow_pos (bitSize - 1)
            omega
          · rename_i positive
            have below : ¬ un ≥ 2 ^ (bitSize - 1) := fun above => notAbove ⟨by simp [positive], above⟩
            exact_mod_cast Nat.lt_of_not_ge below

/-- What `getIntFrom` returns is an `int` that `LIMIT` accepts: `0 .. MaxInt64`. -/
theorem getIntFrom_range {value : Option Value} {n : ℤ} (got : getIntFrom value = .ok n) :
    0 ≤ n ∧ n < 2 ^ 63 := by
  unfold getIntFrom at got
  split at got
  · cases got
    omega
  · split at got
    · cases got
      omega
    · split at got
      · cases got
      · split at got
        · rename_i parsed
          split at got
          · cases got
          · cases got
            exact ⟨by omega, parseInt_lt parsed⟩
        · cases got

theorem getCountAndOffset_range {count offset : Option Value} {n m : ℤ}
    (got : getCountAndOffset count offset = .ok (n, m)) :
    (0 ≤ n ∧ n < 2 ^ 63) ∧ 0 ≤ m ∧ m < 2 ^ 63 := by
  unfold getCountAndOffset at got
  cases counted : getIntFrom count with
  | error err =>
    simp only [counted] at got
    cases got
  | ok n' =>
    cases offsetGot : getIntFrom offset with
    | error err =>
      simp only [counted, offsetGot] at got
      cases got
    | ok m' =>
      simp only [counted, offsetGot] at got
      cases got
      exact ⟨getIntFrom_range counted, getIntFrom_range offsetGot⟩

/-! ### `TryExecute` -/

/-- When the sum fits an `int64`, `TryExecute` keeps the rows from `offset` on,
`count` of them at most, and tells the input to produce `count + offset` rows. -/
theorem limitRows_of_fits {count offset : ℕ} (fits : count + offset < 2 ^ 63) (rows : List α) :
    upperLimit count offset = count + offset ∧
      limitRows count offset rows = .ok ((rows.drop offset).take count) := by
  have exact : wrapInt64 ((count : ℤ) + offset) = count + offset := by
    apply wrapInt64_of_inInt64
    unfold InInt64
    omega
  refine ⟨exact, ?_⟩
  rw [limitRows, exact]
  by_cases enough : count + offset ≤ rows.length
  · rw [if_pos (by exact_mod_cast enough), ← Nat.cast_add, sliceExpr_of_le (by omega) enough,
      Nat.add_sub_cancel]
  · rw [if_neg (by exact_mod_cast enough)]
    have rest : (rows.drop offset).take count = rows.drop offset :=
      List.take_of_length_le (by rw [List.length_drop]; omega)
    by_cases within : offset ≤ rows.length
    · rw [if_pos (by exact_mod_cast within), sliceExpr_of_le within (le_refl _), rest,
        ← List.length_drop, List.take_length]
    · rw [if_neg (by exact_mod_cast within), rest, List.drop_eq_nil_of_le (by omega)]

/-- Once the count and the offset are read, `TryExecute` runs the input with
`__upper_limit` and slices what it returns. -/
theorem tryExecute_of_ok {countValue offsetValue : Option Value} {count offset : ℤ}
    (got : getCountAndOffset countValue offsetValue = .ok (count, offset)) (input : ℤ → List α) :
    tryExecute countValue offsetValue input =
      (limitRows count offset (input (upperLimit count offset))).mapError .panic := by
  rw [tryExecute, got]
  dsimp only
  split <;> rename_i result <;> rw [result] <;> rfl

/-- When the sum fits an `int64`, `TryExecute` passes the input `count + offset`
and keeps `count` rows at most of what it returns, from `offset` on. -/
theorem tryExecute_of_fits {countValue offsetValue : Option Value} {count offset : ℕ}
    (got : getCountAndOffset countValue offsetValue = .ok (count, offset))
    (fits : count + offset < 2 ^ 63) (input : ℤ → List α) :
    tryExecute countValue offsetValue input = .ok (((input (count + offset)).drop offset).take count) := by
  obtain ⟨passed, sliced⟩ := limitRows_of_fits fits (input (count + offset))
  rw [tryExecute_of_ok got, passed, sliced]
  rfl

/-- `LIMIT 1, 9223372036854775807`: both values pass `getIntFrom`, the sum wraps
to `math.MinInt64`, which `TryExecute` passes the input as `__upper_limit`, and
whatever rows the input returns, the slice expression `Rows[1:MinInt64]` panics. -/
theorem limit_offset_sum_wraps (input : ℤ → List α) :
    getCountAndOffset (some ⟨.INT64, "9223372036854775807".toList⟩) (some ⟨.INT64, "1".toList⟩) =
        .ok (2 ^ 63 - 1, 1) ∧
      upperLimit (2 ^ 63 - 1) 1 = -2 ^ 63 ∧
      tryExecute (some ⟨.INT64, "9223372036854775807".toList⟩) (some ⟨.INT64, "1".toList⟩) input =
        .error (.panic .sliceBoundsOutOfRange) := by
  have got : getCountAndOffset (some ⟨.INT64, "9223372036854775807".toList⟩)
      (some ⟨.INT64, "1".toList⟩) = .ok (2 ^ 63 - 1, 1) := by decide
  have wrapped : upperLimit (2 ^ 63 - 1) 1 = -2 ^ 63 := by decide
  refine ⟨got, wrapped, ?_⟩
  rw [tryExecute_of_ok got, wrapped, limitRows, show wrapInt64 (2 ^ 63 - 1 + 1) = -2 ^ 63 from wrapped,
    if_pos (by omega), sliceExpr_of_lt_low (by omega)]
  rfl

/-! ### `TryStreamExecute` -/

/-- What the callback of `TryStreamExecute` keeps between batches, and the rows
of each call it made of the client's callback. -/
structure StreamState (α : Type*) where
  count : ℤ
  offset : ℤ
  sent : List (List α)

/-- The callback once the offset is skipped: it passes on at most `count` rows of
a nonempty batch and returns `io.EOF` once `count` rows went out. -/
def sendRows (state : StreamState α) (rows : List α) :
    Except RuntimeError (StreamState α × Bool) := do
  if state.count = 0 then return (state, true)
  if state.count > rows.length then
    return ({ state with count := state.count - rows.length, sent := state.sent ++ [rows] }, false)
  let result ← sliceExpr rows 0 state.count
  return ({ state with count := 0, sent := state.sent ++ [result] }, true)

/-- One call of the callback on a batch: the new state, and whether it returned
`io.EOF`. -/
def streamBatch (state : StreamState α) (rows : List α) :
    Except RuntimeError (StreamState α × Bool) := do
  if rows.length = 0 then return (state, false)
  if state.offset > 0 then
    -- still skipping the offset
    if rows.length ≤ state.offset then
      return ({ state with offset := state.offset - rows.length }, false)
    let rest ← sliceExpr rows state.offset rows.length
    sendRows { state with offset := 0 } rest
  else sendRows state rows

/-- The input streaming its batches until the callback returns `io.EOF`. -/
def streamRun (state : StreamState α) : List (List α) → Except RuntimeError (StreamState α)
  | [] => .ok state
  | rows :: batches => do
    let (state, eof) ← streamBatch state rows
    if eof then return state else streamRun state batches


/-- The callback after the offset, on a nonempty batch: the rows it passes on are
the first `count` of the batch and of what follows it, less what the next calls
will pass on; it returns `io.EOF` only with nothing left to send. -/
theorem sendRows_spec (count : ℕ) (offset : ℤ) (sent : List (List α)) {rows : List α}
    (nonempty : rows ≠ []) :
    ∃ (count' : ℕ) (newlySent : List (List α)) (eof : Bool),
      sendRows ⟨count, offset, sent⟩ rows = .ok (⟨count', offset, sent ++ newlySent⟩, eof) ∧
      (∀ r ∈ newlySent, r ≠ []) ∧ (eof = true → count' = 0) ∧
      ∀ rest, (rows ++ rest).take count = newlySent.flatten ++ rest.take count' := by
  have : 0 < rows.length := List.length_pos_iff.mpr nonempty
  by_cases done : count = 0
  · subst done
    refine ⟨0, [], true, ?_, by simp, fun _ => rfl, fun rest => by simp⟩
    simp only [sendRows, Nat.cast_zero, ↓reduceIte, List.append_nil]
    rfl
  by_cases whole : count > rows.length
  · -- the whole batch goes out
    refine ⟨count - rows.length, [rows], false, ?_, by simpa using nonempty, nofun, fun rest => ?_⟩
    · simp only [sendRows, Nat.cast_eq_zero, done, ↓reduceIte, Nat.cast_lt, whole]
      congr
      omega
    · rw [List.take_append, List.take_of_length_le (by omega)]
      simp
  · -- the batch is cut at `count`
    have cut : sliceExpr rows 0 count = .ok (rows.take count) := by
      rw [← Nat.cast_zero, sliceExpr_of_le (Nat.zero_le _) (by omega), List.drop_zero,
        Nat.sub_zero]
    refine ⟨0, [rows.take count], true, ?_, ?_, fun _ => rfl, fun rest => ?_⟩
    · simp only [sendRows, Nat.cast_eq_zero, done, ↓reduceIte, Nat.cast_lt, whole, cut]
      rfl
    · simp only [List.mem_singleton, forall_eq, ne_eq, List.take_eq_nil_iff, done, nonempty,
        or_self, not_false_eq_true]
    · rw [List.take_append, show count - rows.length = 0 by omega]
      simp

/-- One call of the callback: what it passes on, and what the later calls will,
are the rows of the batch and of what follows it from `offset` on, `count` of
them at most. -/
theorem streamBatch_spec (count offset : ℕ) (sent : List (List α)) (rows : List α) :
    ∃ (count' offset' : ℕ) (newlySent : List (List α)) (eof : Bool),
      streamBatch ⟨count, offset, sent⟩ rows = .ok (⟨count', offset', sent ++ newlySent⟩, eof) ∧
      (∀ r ∈ newlySent, r ≠ []) ∧ (eof = true → count' = 0) ∧
      ∀ rest, ((rows ++ rest).drop offset).take count =
        newlySent.flatten ++ (rest.drop offset').take count' := by
  by_cases empty : rows = []
  · subst empty
    refine ⟨count, offset, [], false, ?_, by simp, nofun, fun rest => by simp⟩
    simp only [streamBatch, List.length_nil, ↓reduceIte, List.append_nil]
    rfl
  have : 0 < rows.length := List.length_pos_iff.mpr empty
  by_cases skipping : offset > 0
  · by_cases skipped : rows.length ≤ offset
    · -- the whole batch is skipped
      refine ⟨count, offset - rows.length, [], false, ?_, by simp, nofun, fun rest => ?_⟩
      · simp only [streamBatch, List.length_eq_zero_iff, empty, ↓reduceIte, Int.natCast_pos,
          skipping, Nat.cast_le, skipped, List.append_nil]
        congr
        omega
      · rw [List.drop_append, List.drop_eq_nil_of_le skipped]
        simp
    · -- the batch's first rows are skipped, the rest sent on
      have cut : sliceExpr rows offset rows.length = .ok (rows.drop offset) := by
        rw [sliceExpr_of_le (by omega) (le_refl _), ← List.length_drop, List.take_length]
      have nonempty : rows.drop offset ≠ [] := by simp; omega
      obtain ⟨count', newlySent, eof, sends, each, stops, taken⟩ :=
        sendRows_spec count 0 sent nonempty
      refine ⟨count', 0, newlySent, eof, ?_, each, stops, fun rest => ?_⟩
      · simp only [streamBatch, List.length_eq_zero_iff, empty, ↓reduceIte, Int.natCast_pos,
          skipping, Nat.cast_le, skipped, cut]
        exact sends
      · rw [List.drop_append, show offset - rows.length = 0 by omega, List.drop_zero, taken]
  · -- no offset left
    have none : offset = 0 := by omega
    subst none
    obtain ⟨count', newlySent, eof, sends, each, stops, taken⟩ := sendRows_spec count 0 sent empty
    refine ⟨count', 0, newlySent, eof, ?_, each, stops, fun rest => ?_⟩
    · simpa [streamBatch, empty] using sends
    · simpa using taken rest

/-- The run lemma of `TryStreamExecute`: over any batches, the calls of the
client's callback carry, in order and never empty, the rows from `offset` on,
`count` of them at most. -/
theorem streamRun_spec (batches : List (List α)) :
    ∀ (count offset : ℕ) (sent : List (List α)),
      ∃ (state : StreamState α) (newlySent : List (List α)),
        streamRun ⟨count, offset, sent⟩ batches = .ok state ∧ state.sent = sent ++ newlySent ∧
        (∀ r ∈ newlySent, r ≠ []) ∧
        newlySent.flatten = (batches.flatten.drop offset).take count := by
  induction batches with
  | nil => exact fun count offset sent => ⟨_, [], rfl, by simp, by simp, by simp⟩
  | cons rows batches ih =>
    intro count offset sent
    obtain ⟨count', offset', newlySent, eof, batch, each, stops, taken⟩ :=
      streamBatch_spec count offset sent rows
    rw [List.flatten_cons, taken]
    cases eof with
    | true =>
      -- `io.EOF`: the input stops, with nothing left to send
      refine ⟨⟨count', offset', sent ++ newlySent⟩, newlySent, ?_, rfl, each, by simp [stops rfl]⟩
      simp only [streamRun, batch]
      rfl
    | false =>
      obtain ⟨state, laterSent, run, extends', eachLater, takenLater⟩ :=
        ih count' offset' (sent ++ newlySent)
      refine ⟨state, newlySent ++ laterSent, ?_, by simp [extends'], ?_, by simp [takenLater]⟩
      · simp only [streamRun, batch]
        exact run
      · intro r member
        rcases List.mem_append.mp member with now | later
        · exact each r now
        · exact eachLater r later

/-- `Limit.TryStreamExecute`: the rows of each call of the client's callback. -/
def tryStreamExecute (count offset : Option Value) (batches : List (List α)) :
    Except LimitFailure (List (List α)) :=
  match getCountAndOffset count offset with
  | .error err => .error (.limit err)
  | .ok (count, offset) =>
    match streamRun ⟨count, offset, []⟩ batches with
    | .ok state => .ok state.sent
    | .error err => .error (.panic err)

/-- `TryStreamExecute` passes the client exactly the rows `offset .. offset+count`
of what the input streams, however the input splits them into batches, in calls
that are never empty; it never panics. -/
theorem tryStreamExecute_spec {countValue offsetValue : Option Value} {count offset : ℤ}
    (got : getCountAndOffset countValue offsetValue = .ok (count, offset))
    (batches : List (List α)) :
    ∃ sent, tryStreamExecute countValue offsetValue batches = .ok sent ∧
      (∀ r ∈ sent, r ≠ []) ∧ sent.flatten = (batches.flatten.drop offset.toNat).take count.toNat := by
  obtain ⟨⟨countNonneg, -⟩, offsetNonneg, -⟩ := getCountAndOffset_range got
  obtain ⟨count, rfl⟩ := Int.eq_ofNat_of_zero_le countNonneg
  obtain ⟨offset, rfl⟩ := Int.eq_ofNat_of_zero_le offsetNonneg
  obtain ⟨state, sent, run, sentAll, each, taken⟩ := streamRun_spec batches count offset []
  refine ⟨sent, ?_, each, by simpa using taken⟩
  rw [tryStreamExecute, got]
  dsimp only
  rw [run]
  dsimp only
  rw [sentAll, List.nil_append]

end Vitess.Engine
