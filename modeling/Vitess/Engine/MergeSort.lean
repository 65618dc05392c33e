import Vitess.Evalengine.Merger

/-!
# Merging the streams of the shards

`MergeSort.TryStreamExecute` of `go/vt/vtgate/engine/merge_sort.go` merges the
row streams of several shards, each already in `ORDER BY` order. It primes a
`Merger` with the first row of every stream that has one, calls `Init`, and then,
while the merger holds rows, pops the least, sends it to the callback and pushes
the next row of the stream it came from.

A stream here is the list of its rows, and a channel the list of the rows not yet
received from it. The streams end without error and the callback takes every row:
the error paths (a handle's error, `ScatterErrorsAsWarnings`, a cancelled context,
a failing callback) are not modelled. The model returns each row sent with the
stream it came from.

`MergeInvariant` is what holds after every round: the heap holds the next row of
every stream with rows left, and no row to come is below a row sent. With
`Comparison.Less` a strict weak order and every stream in order, the rows sent are
all the rows of all streams, in order, and the rows of each stream come in that
stream's order (`tryStreamExecute_merges`).
-/

namespace Vitess.Engine

open Vitess.Go Vitess.BinaryHeap Vitess.Evalengine
open scoped List

variable {α : Type*} (compare : α → α → ℤ)

/-- Receiving a row from one channel leaves the rest of the rows of all channels. -/
theorem flatten_set_perm {channels : List (List α)} {stream : ℕ} {next : α} {rest : List α}
    (received : channels[stream]? = some (next :: rest)) :
    channels.flatten ~ next :: (channels.set stream rest).flatten := by
  induction channels generalizing stream with
  | nil => cases received
  | cons channel channels ih =>
    cases stream with
    | zero =>
      rw [List.getElem?_cons_zero, Option.some.injEq] at received
      subst received
      rw [List.set_cons_zero, List.flatten_cons, List.flatten_cons, List.cons_append]
    | succ stream =>
      rw [List.getElem?_cons_succ] at received
      rw [List.set_cons_succ, List.flatten_cons, List.flatten_cons]
      exact ((ih received).append_left channel).trans List.perm_middle

/-- The first rows of the streams and the rest of them are all their rows. -/
theorem flatten_take_one_tail (streams : List (List α)) :
    (streams.map (List.take 1)).flatten ++ (streams.map List.tail).flatten ~ streams.flatten := by
  induction streams with
  | nil => exact List.Perm.refl _
  | cons stream streams ih =>
    simp only [List.map_cons, List.flatten_cons]
    calc stream.take 1 ++ (streams.map (List.take 1)).flatten ++ (stream.tail ++ (streams.map List.tail).flatten)
        _ = stream.take 1 ++ ((streams.map (List.take 1)).flatten ++
            (stream.tail ++ (streams.map List.tail).flatten)) := List.append_assoc _ _ _
        _ ~ stream.take 1 ++ (stream.tail ++ ((streams.map (List.take 1)).flatten ++
            (streams.map List.tail).flatten)) := (List.perm_append_comm_assoc _ _ _).append_left _
        _ ~ stream.take 1 ++ (stream.tail ++ streams.flatten) := (ih.append_left _).append_left _
        _ = stream ++ streams.flatten := by
          rw [← List.append_assoc, ← List.drop_one, List.take_append_drop]

namespace MergeSort

/-- Priming the heap: for each stream in turn, its first row if it has one, pushed
with the stream's index. -/
def primeHeap (merge : Merger α) (i : ℕ) : List (List α) → Merger α
  | [] => merge
  | [] :: handles => primeHeap merge (i + 1) handles
  | (row :: _) :: handles => primeHeap (merge.push compare row i) (i + 1) handles

-- the names of the matches are read by the termination proof only
set_option linter.unusedVariables false in
/-- The loop of `TryStreamExecute` after `Init`: the rows sent, each with its stream. -/
def streamLoop (merge : Merger α) (channels : List (List α)) :
    Except RuntimeError (List (MergeRow α)) :=
  if merge.rows.length = 0 then .ok []
  else
    match popped : merge.pop compare with
    | .error err => .error err
    | .ok (row, stream, merge') =>
      match received : channels[stream]? with
      | none => .error .indexOutOfRange
      | some [] => do
        let sent ← streamLoop merge' channels
        return ⟨row, stream⟩ :: sent
      | some (next :: rest) => do
        let sent ← streamLoop (merge'.push compare next stream) (channels.set stream rest)
        return ⟨row, stream⟩ :: sent
termination_by merge.rows.length + channels.flatten.length
decreasing_by
  · have := Merger.length_pop popped
    omega
  · have := Merger.length_pop popped
    have := (flatten_set_perm received).length_eq
    rw [List.length_cons] at this
    rw [Merger.length_push]
    omega

/-- `MergeSort.TryStreamExecute` on shards whose streams are `streams`. -/
def tryStreamExecute (streams : List (List α)) : Except RuntimeError (List (MergeRow α)) :=
  streamLoop compare ((primeHeap compare ⟨[], false⟩ 0 streams).init compare) (streams.map List.tail)

variable {compare}

/-- A round of the loop once the root is popped: it turns on what the root's
channel still holds. -/
theorem streamLoop_of_popped {merge merge' : Merger α} {channels : List (List α)} {row : α}
    {stream : ℕ} (notEmpty : merge.rows.length ≠ 0) (popped : merge.pop compare = .ok (row, stream, merge')) :
    streamLoop compare merge channels =
      match channels[stream]? with
      | none => .error .indexOutOfRange
      | some [] => (fun sent => ⟨row, stream⟩ :: sent) <$> streamLoop compare merge' channels
      | some (next :: rest) => (fun sent => ⟨row, stream⟩ :: sent) <$>
          streamLoop compare (merge'.push compare next stream) (channels.set stream rest) := by
  rw [streamLoop, if_neg notEmpty]
  split
  · rename_i popped'
    rw [popped] at popped'
    cases popped'
  · rename_i popped'
    rw [popped] at popped'
    cases popped'
    split
    · rename_i received
      rw [received]
    · rename_i received
      rw [received]
      rfl
    · rename_i received
      rw [received]
      rfl

end MergeSort

/-! ### The rows of one stream -/

/-- The rows of stream `i` among rows tagged with their streams, in order. -/
def fromStream (i : ℕ) (rows : List (MergeRow α)) : List α :=
  (rows.filter fun r => r.source = i).map MergeRow.row

section FromStream

variable {i : ℕ} {rows rows' : List (MergeRow α)}

@[simp] theorem fromStream_nil : fromStream i ([] : List (MergeRow α)) = [] := rfl

@[simp] theorem fromStream_append : fromStream i (rows ++ rows') = fromStream i rows ++ fromStream i rows' := by
  simp [fromStream]

@[simp] theorem fromStream_singleton_self (row : α) : fromStream i [⟨row, i⟩] = [row] := by
  simp [fromStream]

theorem fromStream_singleton_of_ne {source : ℕ} (other : source ≠ i) (row : α) :
    fromStream i [⟨row, source⟩] = [] := by
  simp [fromStream, other]

theorem fromStream_cons (r : MergeRow α) : fromStream i (r :: rows) = fromStream i [r] ++ fromStream i rows :=
  @fromStream_append _ i [r] rows

theorem mem_row_of_mem_fromStream {x : α} (member : x ∈ fromStream i rows) :
    ∃ r ∈ rows, r.row = x := by
  obtain ⟨r, found, rfl⟩ := List.mem_map.mp member
  exact ⟨r, List.mem_of_mem_filter found, rfl⟩

theorem perm_fromStream (perm : rows ~ rows') : fromStream i rows ~ fromStream i rows' :=
  (perm.filter _).map _

/-- Rows that are a permutation of rows with at most one of stream `i` have the
same row of stream `i`. -/
theorem fromStream_eq_of_perm (perm : rows ~ rows') (short : (fromStream i rows').length ≤ 1) :
    fromStream i rows = fromStream i rows' := by
  have same : fromStream i rows ~ fromStream i rows' := perm_fromStream perm
  generalize fromStream i rows' = heads at same short
  rcases heads with _ | ⟨head, _ | ⟨_, _⟩⟩
  · exact List.perm_nil.mp same
  · exact List.perm_singleton.mp same
  · simp at short

end FromStream

section Prime

variable {compare}

/-- What a tagged row list holds of stream `j` when the rows all come from stream `i`. -/
theorem fromStream_tagged (rows : List α) (i j : ℕ) :
    fromStream j (rows.map fun row => (⟨row, i⟩ : MergeRow α)) = if i = j then rows else [] := by
  induction rows with
  | nil => simp
  | cons row rows ih =>
    rw [List.map_cons, fromStream_cons, ih]
    by_cases same : i = j
    · subst same
      simp
    · simp [fromStream_singleton_of_ne same, same]

/-- Priming pushes, before `Init`, the first row of each stream, in order. -/
theorem primeHeap_spec (handles : List (List α)) : ∀ (rows : List (MergeRow α)) (i : ℕ),
    (MergeSort.primeHeap compare ⟨rows, false⟩ i handles).lessSet = false ∧
      (MergeSort.primeHeap compare ⟨rows, false⟩ i handles).rows.map MergeRow.row =
        rows.map MergeRow.row ++ (handles.map (List.take 1)).flatten ∧
      ∀ j, fromStream j (MergeSort.primeHeap compare ⟨rows, false⟩ i handles).rows =
        fromStream j rows ++ if i ≤ j then (handles.getD (j - i) []).take 1 else [] := by
  induction handles with
  | nil => exact fun rows i => ⟨rfl, by simp [MergeSort.primeHeap], fun j => by simp [MergeSort.primeHeap]⟩
  | cons handle handles ih =>
    intro rows i
    -- one stream: its first row, if any, goes in tagged with its index
    have step : MergeSort.primeHeap compare ⟨rows, false⟩ i (handle :: handles) =
        MergeSort.primeHeap compare ⟨rows ++ (handle.take 1).map fun row => ⟨row, i⟩, false⟩ (i + 1) handles := by
      cases handle with
      | nil => rw [MergeSort.primeHeap, List.take_nil, List.map_nil, List.append_nil]
      | cons row _ =>
        rw [MergeSort.primeHeap, Merger.push_of_not_lessSet rfl]
        rfl
    obtain ⟨lessSet, rowsEq, each⟩ := ih (rows ++ (handle.take 1).map fun row => ⟨row, i⟩) (i + 1)
    rw [step]
    refine ⟨lessSet, ?_, fun j => ?_⟩
    · rw [rowsEq]
      simp [Function.comp_def]
    rw [each j, fromStream_append, fromStream_tagged, List.append_assoc]
    congr 1
    rcases Nat.lt_trichotomy i j with before | rfl | after
    · obtain ⟨k, rfl⟩ := Nat.exists_eq_add_of_lt before
      rw [if_neg (by omega), if_pos (by omega), if_pos (by omega), List.nil_append,
        show i + k + 1 - i = k + 1 by omega, List.getD_cons_succ, show i + k + 1 - (i + 1) = k by omega]
    · rw [if_pos rfl, if_neg (by omega), if_pos (Nat.le_refl i), Nat.sub_self, List.getD_cons_zero,
        List.append_nil]
    · rw [if_neg (by omega), if_neg (by omega), if_neg (by omega), List.nil_append]

end Prime

/-- The rows of stream `i` not yet sent: its row in the heap, then the rows its
channel still holds. -/
def pending (merge : Merger α) (channels : List (List α)) (i : ℕ) : List α :=
  fromStream i merge.rows ++ channels.getD i []

/-! ### The invariant of the loop -/

/-- What holds after every round of the loop over `streams`, once `sent` went out:
the heap is a heap under `Less` and holds the next row of every stream with rows
left and no other; the rows sent and the rows to come make up each stream in
order, and all streams together; the rows sent are in order, and no row to come is
below one of them. -/
structure MergeInvariant (streams : List (List α)) (sent : List (MergeRow α)) (merge : Merger α)
    (channels : List (List α)) : Prop where
  ordered : HeapOrdered (mergeLess compare) merge.rows
  lessSet : merge.lessSet = true
  channels_length : channels.length = streams.length
  one_head : ∀ i, (fromStream i merge.rows).length ≤ 1
  headed : ∀ i, fromStream i merge.rows = [] → channels.getD i [] = []
  split : ∀ i, fromStream i sent ++ pending merge channels i = streams.getD i []
  all : sent.map MergeRow.row ++ merge.rows.map MergeRow.row ++ channels.flatten ~ streams.flatten
  sent_sorted : (sent.map MergeRow.row).Pairwise fun a b => lessRow compare b a = false
  below : ∀ s ∈ sent, ∀ i, ∀ x ∈ pending merge channels i, lessRow compare x s.row = false

section Invariant

variable {compare} [IsStrictWeakOrder α fun a b => lessRow compare a b = true]
  {streams : List (List α)} (sorted : ∀ s ∈ streams, s.Pairwise fun a b => lessRow compare b a = false)
  {sent : List (MergeRow α)} {merge : Merger α} {channels : List (List α)}

omit [IsStrictWeakOrder α fun a b => lessRow compare a b = true] in
include sorted in
/-- What is left of a stream is in order. -/
theorem MergeInvariant.pending_sorted (inv : MergeInvariant compare streams sent merge channels) (i : ℕ) :
    (pending merge channels i).Pairwise fun a b => lessRow compare b a = false := by
  have whole : (streams.getD i []).Pairwise fun a b => lessRow compare b a = false := by
    rw [List.getD_eq_getElem?_getD]
    cases found : streams[i]? with
    | none => exact List.Pairwise.nil
    | some stream => exact sorted stream (List.mem_of_getElem? found)
  rw [← inv.split i] at whole
  exact whole.sublist (List.sublist_append_right _ _)

include sorted in
/-- A row no row of the heap is below is not above any row to come: a row still in
a channel comes after its stream's row in the heap. -/
theorem MergeInvariant.root_le_pending (inv : MergeInvariant compare streams sent merge channels)
    {root : α} (least : ∀ y ∈ merge.rows, lessRow compare y.row root = false) (i : ℕ) :
    ∀ x ∈ pending merge channels i, lessRow compare x root = false := by
  have fromHeap : ∀ x ∈ fromStream i merge.rows, lessRow compare x root = false := by
    intro x member
    obtain ⟨r, held, rfl⟩ := mem_row_of_mem_fromStream member
    exact least r held
  intro x member
  rcases List.mem_append.mp member with inHeap | inChannel
  · exact fromHeap x inHeap
  · -- the channel has rows, so the heap holds its stream's row, which comes before
    obtain ⟨head, heads, isHead⟩ : ∃ head heads, fromStream i merge.rows = head :: heads := by
      cases found : fromStream i merge.rows with
      | nil => rw [inv.headed i found] at inChannel; cases inChannel
      | cons head rest => exact ⟨head, rest, rfl⟩
    have after := (List.pairwise_append.mp (inv.pending_sorted sorted i)).2.2
    rw [isHead] at after fromHeap
    exact not_lt_trans (fromHeap head List.mem_cons_self) (after head List.mem_cons_self x inChannel)

include sorted in
/-- A round keeps the invariant when it sends the root and leaves of each stream
what was pending but the root. -/
theorem MergeInvariant.of_round (inv : MergeInvariant compare streams sent merge channels)
    {root : MergeRow α} (least : ∀ y ∈ merge.rows, lessRow compare y.row root.row = false)
    {merge' : Merger α} {channels' : List (List α)}
    (ordered : HeapOrdered (mergeLess compare) merge'.rows) (lessSet : merge'.lessSet = true)
    (channels_length : channels'.length = channels.length)
    (one_head : ∀ i, (fromStream i merge'.rows).length ≤ 1)
    (headed : ∀ i, fromStream i merge'.rows = [] → channels'.getD i [] = [])
    (rest : ∀ i, fromStream i [root] ++ pending merge' channels' i = pending merge channels i)
    (all : root.row :: (merge'.rows.map MergeRow.row ++ channels'.flatten) ~
      merge.rows.map MergeRow.row ++ channels.flatten) :
    MergeInvariant compare streams (sent ++ [root]) merge' channels' := by
  have wasPending : ∀ i, ∀ x ∈ pending merge' channels' i, x ∈ pending merge channels i := by
    intro i x member
    rw [← rest i]
    exact List.mem_append_right _ member
  have rootPending : root.row ∈ pending merge channels root.source := by
    rw [← rest root.source]
    exact List.mem_append_left _ (by simp [fromStream])
  refine ⟨ordered, lessSet, channels_length.trans inv.channels_length, one_head, headed,
    fun i => ?_, ?_, ?_, ?_⟩
  · rw [fromStream_append, List.append_assoc, rest i, inv.split i]
  · calc (sent ++ [root]).map MergeRow.row ++ merge'.rows.map MergeRow.row ++ channels'.flatten
        _ = sent.map MergeRow.row ++ root.row :: (merge'.rows.map MergeRow.row ++ channels'.flatten) := by
          simp
        _ ~ sent.map MergeRow.row ++ (merge.rows.map MergeRow.row ++ channels.flatten) :=
          all.append_left _
        _ ~ streams.flatten := by
          rw [← List.append_assoc]
          exact inv.all
  · rw [List.map_append, List.pairwise_append]
    refine ⟨inv.sent_sorted, List.pairwise_singleton _ _, fun a wasSent b isRoot => ?_⟩
    obtain ⟨s, member, rfl⟩ := List.mem_map.mp wasSent
    rw [List.map_singleton, List.mem_singleton] at isRoot
    rw [isRoot]
    exact inv.below s member root.source root.row rootPending
  · intro s member i x pendingNow
    rcases List.mem_append.mp member with old | isRoot
    · exact inv.below s old i x (wasPending i x pendingNow)
    · rw [List.mem_singleton.mp isRoot]
      exact inv.root_le_pending sorted least i x (wasPending i x pendingNow)

/-- The root popped, the row of each stream in the heap is the root's or one left. -/
theorem MergeInvariant.popped_heads (inv : MergeInvariant compare streams sent merge channels)
    {row : α} {stream : ℕ} {merge' : Merger α} (popped : merge.pop compare = .ok (row, stream, merge'))
    (i : ℕ) : fromStream i [⟨row, stream⟩] ++ fromStream i merge'.rows = fromStream i merge.rows := by
  rw [← fromStream_cons]
  exact fromStream_eq_of_perm (Merger.pop_spec inv.ordered popped).1.symm (inv.one_head i)

theorem getD_of_getElem? {channels : List (List α)} {i : ℕ} {channel : List α}
    (found : channels[i]? = some channel) : channels.getD i [] = channel := by
  rw [List.getD_eq_getElem?_getD, found, Option.getD_some]

include sorted in
/-- A round whose stream has no more rows: the root goes out and nothing comes in. -/
theorem MergeInvariant.round_closed (inv : MergeInvariant compare streams sent merge channels)
    {row : α} {stream : ℕ} {merge' : Merger α} (popped : merge.pop compare = .ok (row, stream, merge'))
    (received : channels[stream]? = some []) :
    MergeInvariant compare streams (sent ++ [⟨row, stream⟩]) merge' channels := by
  obtain ⟨perm, ordered, lessSet, least⟩ := Merger.pop_spec inv.ordered popped
  have heads := inv.popped_heads popped
  refine inv.of_round sorted least ordered (lessSet.trans inv.lessSet) rfl (fun i => ?_) (fun i left => ?_)
    (fun i => ?_) ?_
  · have := congrArg List.length (heads i)
    rw [List.length_append] at this
    have := inv.one_head i
    omega
  · by_cases same : stream = i
    · subst same
      exact getD_of_getElem? received
    · apply inv.headed i
      rw [← heads i, left, fromStream_singleton_of_ne same, List.append_nil]
  · rw [pending, pending, ← List.append_assoc, heads i]
  · rw [← List.cons_append]
    exact ((perm.map MergeRow.row).symm.append_right _)

include sorted in
/-- A round whose stream has more rows: the root goes out and the stream's next
row takes its place in the heap. -/
theorem MergeInvariant.round_next (inv : MergeInvariant compare streams sent merge channels)
    {row : α} {stream : ℕ} {merge' : Merger α} (popped : merge.pop compare = .ok (row, stream, merge'))
    {next : α} {rest : List α} (received : channels[stream]? = some (next :: rest)) :
    MergeInvariant compare streams (sent ++ [⟨row, stream⟩]) (merge'.push compare next stream)
      (channels.set stream rest) := by
  obtain ⟨perm, ordered, lessSet, least⟩ := Merger.pop_spec inv.ordered popped
  have heads := inv.popped_heads popped
  -- the stream had only the root in the heap
  have noneLeft : fromStream stream merge'.rows = [] := by
    have := congrArg List.length (heads stream)
    rw [List.length_append, fromStream_singleton_self, List.length_singleton] at this
    have := inv.one_head stream
    exact List.length_eq_zero_iff.mp (by omega)
  have pushed : ∀ i, fromStream i (merge'.push compare next stream).rows =
      fromStream i merge'.rows ++ fromStream i [⟨next, stream⟩] := by
    intro i
    rw [← fromStream_append]
    refine fromStream_eq_of_perm (merge'.push_perm next stream) ?_
    rw [fromStream_append]
    by_cases same : stream = i
    · subst same
      rw [noneLeft, fromStream_singleton_self]
      simp
    · have := congrArg List.length (heads i)
      rw [List.length_append] at this
      have := inv.one_head i
      rw [fromStream_singleton_of_ne same, List.append_nil]
      omega
  have inRange : stream < channels.length := (List.getElem?_eq_some_iff.mp received).1
  have channel : ∀ i, stream ≠ i → (channels.set stream rest).getD i [] = channels.getD i [] := by
    intro i other
    rw [List.getD_eq_getElem?_getD, List.getD_eq_getElem?_getD, List.getElem?_set_ne other]
  refine inv.of_round sorted least (Merger.push_spec ordered (lessSet.trans inv.lessSet) next stream)
    (lessSet.trans inv.lessSet) List.length_set (fun i => ?_) (fun i left => ?_) (fun i => ?_) ?_
  · rw [pushed i]
    by_cases same : stream = i
    · subst same
      simp [noneLeft]
    · have := congrArg List.length (heads i)
      rw [List.length_append] at this
      have := inv.one_head i
      rw [fromStream_singleton_of_ne same, List.append_nil]
      omega
  · by_cases same : stream = i
    · subst same
      rw [pushed, noneLeft, fromStream_singleton_self] at left
      cases left
    · rw [channel i same]
      apply inv.headed i
      rw [pushed i, fromStream_singleton_of_ne same, List.append_nil] at left
      rw [← heads i, left, fromStream_singleton_of_ne same, List.append_nil]
  · rw [pending, pending, pushed i]
    by_cases same : stream = i
    · subst same
      rw [getD_of_getElem? (List.getElem?_set_self inRange), getD_of_getElem? received, ← heads stream,
        noneLeft]
      simp
    · rw [channel i same, ← heads i, fromStream_singleton_of_ne same row,
        fromStream_singleton_of_ne same next]
      simp
  · calc row :: ((merge'.push compare next stream).rows.map MergeRow.row ++ (channels.set stream rest).flatten)
        _ ~ row :: (merge'.rows.map MergeRow.row ++ [next] ++ (channels.set stream rest).flatten) := by
          refine List.Perm.cons row (List.Perm.append_right _ ?_)
          simpa using (merge'.push_perm next stream).map MergeRow.row
        _ = (row :: merge'.rows.map MergeRow.row) ++ next :: (channels.set stream rest).flatten := by
          simp
        _ ~ merge.rows.map MergeRow.row ++ channels.flatten :=
          ((perm.map MergeRow.row).symm.append (flatten_set_perm received).symm)

/-- The stream of the popped root is one of the streams. -/
theorem MergeInvariant.stream_lt (inv : MergeInvariant compare streams sent merge channels)
    {row : α} {stream : ℕ} {merge' : Merger α} (popped : merge.pop compare = .ok (row, stream, merge')) :
    stream < channels.length := by
  have held : (⟨row, stream⟩ : MergeRow α) ∈ merge.rows :=
    (Merger.pop_spec inv.ordered popped).1.symm.subset List.mem_cons_self
  have toCome : row ∈ streams.getD stream [] := by
    rw [← inv.split stream, pending]
    exact List.mem_append_right _ (List.mem_append_left _
      (List.mem_map.mpr ⟨_, List.mem_filter.mpr ⟨held, by simp⟩, rfl⟩))
  rw [inv.channels_length]
  by_contra late
  rw [List.getD_eq_getElem?_getD, List.getElem?_eq_none (by omega), Option.getD_none] at toCome
  cases toCome

include sorted in
/-- The run lemma: from any state with the invariant, the loop runs to the end,
where the heap is empty, without a panic and keeping the invariant. -/
theorem MergeInvariant.run (inv : MergeInvariant compare streams sent merge channels) :
    ∃ rest merge' channels', MergeSort.streamLoop compare merge channels = .ok rest ∧
      merge'.rows = [] ∧ MergeInvariant compare streams (sent ++ rest) merge' channels' := by
  induction merge, channels using MergeSort.streamLoop.induct compare generalizing sent with
  | case1 merge channels empty =>
    refine ⟨[], merge, channels, ?_, List.length_eq_zero_iff.mp empty, by rwa [List.append_nil]⟩
    rw [MergeSort.streamLoop, if_pos empty]
  | case2 merge channels notEmpty err popped =>
    -- a heap with rows pops
    obtain ⟨_, _, _, popped'⟩ := @Merger.pop_ok _ compare _ (List.ne_nil_of_length_pos (Nat.pos_of_ne_zero notEmpty))
    rw [popped] at popped'
    cases popped'
  | case3 merge channels notEmpty row stream merge' popped received =>
    have := inv.stream_lt popped
    rw [List.getElem?_eq_none_iff] at received
    omega
  | case4 merge channels notEmpty row stream merge' popped received ih =>
    obtain ⟨rest, merge'', channels', loop, empty, inv'⟩ := ih (inv.round_closed sorted popped received)
    refine ⟨⟨row, stream⟩ :: rest, merge'', channels', ?_, empty, by rwa [List.append_cons]⟩
    rw [MergeSort.streamLoop_of_popped notEmpty popped, received, loop]
    rfl
  | case5 merge channels notEmpty row stream merge' popped next rest received ih =>
    obtain ⟨later, merge'', channels', loop, empty, inv'⟩ := ih (inv.round_next sorted popped received)
    refine ⟨⟨row, stream⟩ :: later, merge'', channels', ?_, empty, by rwa [List.append_cons]⟩
    rw [MergeSort.streamLoop_of_popped notEmpty popped, received]
    dsimp only
    rw [loop]
    rfl

omit [IsStrictWeakOrder α fun a b => lessRow compare a b = true] in
/-- At the end of the loop, with nothing left in the heap, the rows sent are all
the rows of the streams, in order, with each stream's rows in its order. -/
theorem MergeInvariant.done (inv : MergeInvariant compare streams sent merge channels)
    (empty : merge.rows = []) :
    sent.map MergeRow.row ~ streams.flatten ∧
      (sent.map MergeRow.row).Pairwise (fun a b => lessRow compare b a = false) ∧
      ∀ i, fromStream i sent = streams.getD i [] := by
  have drained : ∀ i, channels.getD i [] = [] := fun i => inv.headed i (by rw [empty]; rfl)
  refine ⟨?_, inv.sent_sorted, fun i => ?_⟩
  · have noRows : channels.flatten = [] := List.flatten_eq_nil_iff.mpr fun channel member => by
      obtain ⟨i, found⟩ := List.getElem?_of_mem member
      rw [← getD_of_getElem? found, drained i]
    simpa [empty, noRows] using inv.all
  · have each := inv.split i
    rw [pending, empty, fromStream_nil, List.nil_append, drained i, List.append_nil] at each
    exact each

/-- After priming and `Init`, the invariant holds with nothing sent: the heap holds
the first row of every stream, and the channels the rest. -/
theorem MergeInvariant.init (streams : List (List α)) :
    MergeInvariant compare streams []
      ((MergeSort.primeHeap compare ⟨[], false⟩ 0 streams).init compare) (streams.map List.tail) := by
  obtain ⟨_, rowsEq, each⟩ := primeHeap_spec streams [] 0
  have built := heapify_perm (mergeLess compare) (MergeSort.primeHeap compare ⟨[], false⟩ 0 streams).rows
  have heads : ∀ i, fromStream i ((MergeSort.primeHeap compare ⟨[], false⟩ 0 streams).init compare).rows =
      (streams.getD i []).take 1 := by
    intro i
    have primed := each i
    rw [fromStream_nil, List.nil_append, if_pos (Nat.zero_le i), Nat.sub_zero] at primed
    rw [← primed]
    refine fromStream_eq_of_perm built ?_
    rw [primed, List.length_take]
    omega
  have tails : ∀ i, (streams.map List.tail).getD i [] = (streams.getD i []).tail := by
    intro i
    rw [List.getD_eq_getElem?_getD, List.getD_eq_getElem?_getD, List.getElem?_map]
    cases streams[i]? <;> rfl
  refine ⟨heapify_heapOrdered _, rfl, List.length_map _, fun i => ?_, fun i noHead => ?_, fun i => ?_, ?_,
    List.Pairwise.nil, nofun⟩
  · rw [heads i, List.length_take]
    omega
  · rw [heads i, List.take_eq_nil_iff] at noHead
    rw [tails i, noHead.resolve_left Nat.one_ne_zero, List.tail_nil]
  · rw [pending, heads i, tails i, ← List.drop_one, List.take_append_drop, fromStream_nil, List.nil_append]
  · rw [List.map_nil, List.nil_append]
    refine List.Perm.trans (List.Perm.append_right _ ?_) (flatten_take_one_tail streams)
    rw [List.map_nil, List.nil_append] at rowsEq
    rw [← rowsEq]
    exact built.map _

/-- `MergeSort.TryStreamExecute` merges: when `Comparison.Less` is a strict weak
order and every stream is in order under it, the loop ends without a panic, and
the rows it sends are all the rows of all streams, in order, with the rows of each
stream in that stream's order. -/
theorem tryStreamExecute_merges (streams : List (List α))
    (sorted : ∀ s ∈ streams, s.Pairwise fun a b => lessRow compare b a = false) :
    ∃ sent, MergeSort.tryStreamExecute compare streams = .ok sent ∧
      sent.map MergeRow.row ~ streams.flatten ∧
      (sent.map MergeRow.row).Pairwise (fun a b => lessRow compare b a = false) ∧
      ∀ i, fromStream i sent = streams.getD i [] := by
  obtain ⟨sent, merge, channels, loop, empty, inv⟩ := (MergeInvariant.init streams).run sorted
  rw [List.nil_append] at inv
  exact ⟨sent, loop, inv.done empty⟩

end Invariant

/-- Two streams of integers merged under the order of `a - b`. -/
theorem tryStreamExecute_merges_example :
    IsStrictWeakOrder ℤ (fun a b => lessRow (fun a b : ℤ => a - b) a b = true) ∧
      (∀ s ∈ [[1, 4], [2, 3]], s.Pairwise fun a b => lessRow (fun a b : ℤ => a - b) b a = false) ∧
      ∃ sent, MergeSort.tryStreamExecute (fun a b : ℤ => a - b) [[1, 4], [2, 3]] = .ok sent ∧
        sent.map MergeRow.row ~ [[1, 4], [2, 3]].flatten ∧
        (sent.map MergeRow.row).Pairwise (fun a b => lessRow (fun a b : ℤ => a - b) b a = false) ∧
        ∀ i, fromStream i sent = [[1, 4], [2, 3]].getD i [] := by
  have order : IsStrictWeakOrder ℤ (fun a b => lessRow (fun a b : ℤ => a - b) a b = true) :=
    TotalPreorder.isStrictWeakOrder_less ⟨fun a b => by omega, fun a b c => by omega⟩
  have sorted : ∀ s ∈ [[1, 4], [2, 3]], s.Pairwise fun a b => lessRow (fun a b : ℤ => a - b) b a = false := by
    decide
  exact ⟨order, sorted, tryStreamExecute_merges [[1, 4], [2, 3]] sorted⟩

end Vitess.Engine
