import Vitess.Key.Span
import Mathlib.Data.List.Sort

/-!
# Destinations

The `key.Destination`s that the unique vindexes of this project map ids to
(`go/vt/key/destination.go`): one keyspace id, a key range, all shards, or none;
and how an exact key range resolves to shards.

`processExactKeyRange` sorts the shards with `sort.SliceStable` by
`KeyRangeLess`, skips to the first shard that starts where the range starts, and
adds shards while they intersect the range, until one ends where the range ends.
`KeyRangeLess` orders ranges by the points of their `Start` and then of their
`End`, a strict weak order, under which a stable sort has exactly one result;
`List.insertionSort` is such a sort. The shard-adding callback is taken to
succeed: its error is passed on unchanged.

A shard whose bounds name the same id, such as `80-8000` (which
`topo.ValidateShardName` accepts, comparing raw bytes), holds no id; sorted
before `8000-`, it stops the walk of the range `80-` that the two shards make up
together (`exact_key_range_stops_at_empty_shard`).
-/

namespace Vitess.Key

/-- `key.Destination`. -/
inductive Destination where
  /-- `key.DestinationKeyspaceID` -/
  | keyspaceID (ksid : Bytes)
  /-- `key.DestinationKeyRange` -/
  | keyRange (kr : KeyRange)
  /-- `key.DestinationAllShards` -/
  | allShards
  /-- `key.DestinationNone` -/
  | none
  deriving DecidableEq, Repr

/-- `topodatapb.ShardReference`: a shard's name and key range. -/
structure ShardReference where
  Name : String
  KeyRange : Option KeyRange
  deriving DecidableEq, Repr

/-- `keyrange %v does not exactly match shards`. -/
structure ExactKeyRangeError where
  keyRange : Option KeyRange
  deriving DecidableEq, Repr

/-- The order `sort.SliceStable` is given: `a` may come first unless
`KeyRangeLess(b, a)`. -/
def shardLe (a b : ShardReference) : Prop :=
  keyRangeLess b.KeyRange a.KeyRange = false

instance : DecidableRel shardLe :=
  fun _ _ => inferInstanceAs (Decidable (_ = _))

/-- The second loop of `processExactKeyRange`: each shard that intersects the
range is added; the walk ends with success at a shard ending where the range
ends. -/
def addIntersecting (kr : Option KeyRange) : List ShardReference → List String × Bool
  | [] => ([], false)
  | shard :: rest =>
    if !keyRangeIntersect kr shard.KeyRange then ([], false)
    else if keyRangeEndEqual kr shard.KeyRange then ([shard.Name], true)
    else
      let (added, matched) := addIntersecting kr rest
      (shard.Name :: added, matched)

/-- `processExactKeyRange`: the names passed to `addShard`, in order, and the
result: `nil`, or the error. -/
def processExactKeyRange (allShards : List ShardReference) (kr : Option KeyRange) :
    List String × Except ExactKeyRangeError Unit :=
  let sorted := allShards.insertionSort shardLe
  -- the first loop: skip to the first shard starting where the range starts
  let (added, matched) :=
    addIntersecting kr (sorted.dropWhile fun shard => !keyRangeStartEqual kr shard.KeyRange)
  (added, if matched then .ok () else .error ⟨kr⟩)

/-! ### What a successful resolution added -/

/-- A walk that ends with success added a run of consecutive shards, each
intersecting the range, the last ending where the range ends. -/
theorem addIntersecting_matched {kr : Option KeyRange} :
    ∀ {shards : List ShardReference} {added : List String},
      addIntersecting kr shards = (added, true) →
      ∃ taken rest, shards = taken ++ rest ∧ added = taken.map (·.Name) ∧
        (∀ shard ∈ taken, keyRangeIntersect kr shard.KeyRange = true) ∧
        ∃ last ∈ taken.getLast?, keyRangeEndEqual kr last.KeyRange = true
  | [], _, walked => by cases walked
  | shard :: rest, added, walked => by
    rw [addIntersecting] at walked
    by_cases apart : keyRangeIntersect kr shard.KeyRange = false
    · rw [if_pos (by simp [apart])] at walked
      cases walked
    have meets : keyRangeIntersect kr shard.KeyRange = true := by simpa using apart
    rw [if_neg (by simp [meets])] at walked
    by_cases ends : keyRangeEndEqual kr shard.KeyRange = true
    · -- the range ends with this shard
      rw [if_pos ends] at walked
      cases walked
      exact ⟨[shard], rest, rfl, rfl, by simpa using meets, shard, rfl, ends⟩
    · rw [if_neg ends] at walked
      cases later : addIntersecting kr rest with
      | mk laterAdded matched =>
        rw [later] at walked
        cases walked
        obtain ⟨taken, rest', split, names, each, last, isLast, lastEnds⟩ :=
          addIntersecting_matched later
        refine ⟨shard :: taken, rest', by rw [split, List.cons_append], by rw [names, List.map_cons],
          ?_, last, ?_, lastEnds⟩
        · intro member isMember
          rcases List.mem_cons.mp isMember with rfl | inTaken
          · exact meets
          · exact each member inTaken
        · cases taken with
          | nil => cases isLast
          | cons first more => simpa [List.getLast?_cons_cons] using isLast

/-- When `processExactKeyRange` returns `nil`, the shards it added are a run of
the sorted shards: the first starts where the range starts, and none before it
does; each intersects the range; the last ends where the range ends. -/
theorem processExactKeyRange_ok {allShards : List ShardReference} {kr : Option KeyRange}
    (matched : (processExactKeyRange allShards kr).2 = .ok ()) :
    ∃ before taken rest, allShards.insertionSort shardLe = before ++ taken ++ rest ∧
      (processExactKeyRange allShards kr).1 = taken.map (·.Name) ∧
      (∀ shard ∈ before, keyRangeStartEqual kr shard.KeyRange = false) ∧
      (∀ first ∈ taken.head?, keyRangeStartEqual kr first.KeyRange = true) ∧
      (∀ shard ∈ taken, keyRangeIntersect kr shard.KeyRange = true) ∧
      ∃ last ∈ taken.getLast?, keyRangeEndEqual kr last.KeyRange = true := by
  set sorted := allShards.insertionSort shardLe
  set startsLater := fun shard : ShardReference => !keyRangeStartEqual kr shard.KeyRange
  cases walked : addIntersecting kr (sorted.dropWhile startsLater) with
  | mk added ok =>
    have result : processExactKeyRange allShards kr = (added, if ok then .ok () else .error ⟨kr⟩) := by
      rw [processExactKeyRange]
      dsimp only
      rw [walked]
    cases ok with
    | false => rw [result] at matched; cases matched
    | true =>
      obtain ⟨taken, rest, split, names, each, last⟩ := addIntersecting_matched walked
      refine ⟨sorted.takeWhile startsLater, taken, rest, ?_, by rw [result, names], ?_, ?_, each, last⟩
      · rw [List.append_assoc, ← split, List.takeWhile_append_dropWhile]
      · intro shard member
        simpa [startsLater] using List.mem_takeWhile_imp member
      · intro first isFirst
        cases taken with
        | nil => cases isFirst
        | cons head more =>
          rw [List.head?_cons, Option.mem_some_iff] at isFirst
          subst isFirst
          have := @List.head_dropWhile_not _ startsLater sorted (by rw [split]; simp)
          simp only [split, List.cons_append, List.head_cons] at this
          simpa [startsLater] using this

/-! ### A shard that holds no id -/

/-- The shards `-80`, `80-8000` and `8000-`. -/
def emptyShardSplit : List ShardReference :=
  [⟨"-80", some ⟨[], [0x80]⟩⟩, ⟨"80-8000", some ⟨[0x80], [0x80, 0]⟩⟩,
    ⟨"8000-", some ⟨[0x80, 0], []⟩⟩]

/-- The shards `-80`, `80-8000` and `8000-` hold every id exactly once, and the
range `80-` holds exactly the ids of the last two, so both its bounds are shard
boundaries. Sorted, `80-8000` is the first shard starting at `0x80`; it does not
intersect `80-`, so `processExactKeyRange` adds no shard and fails. -/
theorem exact_key_range_stops_at_empty_shard :
    (∀ id, (emptyShardSplit.filter fun shard => keyRangeContains shard.KeyRange id).length = 1) ∧
      (∀ id, keyRangeContains (some ⟨[0x80], []⟩) id = true ↔
        keyRangeContains (some ⟨[0x80], [0x80, 0]⟩) id = true ∨
          keyRangeContains (some ⟨[0x80, 0], []⟩) id = true) ∧
      processExactKeyRange emptyShardSplit (some ⟨[0x80], []⟩) = ([], .error ⟨some ⟨[0x80], []⟩⟩) := by
  have below : ∀ id, keyRangeContains (some ⟨[], [0x80]⟩) id = decide (keyPoint id < [128]) := by
    intro id
    have stop : endPoint (some ⟨[], [0x80]⟩) = ↑([128] : List ℕ) := rfl
    rw [Bool.eq_iff_iff, keyRangeContains_iff, span, stop, decide_eq_true_iff]
    simp [startPoint, points_nil_le]
  have nothing : ∀ id, keyRangeContains (some ⟨[0x80], [0x80, 0]⟩) id = false :=
    keyRangeContains_eq_false_of_le (by decide)
  have fromStart : ∀ start : Bytes, keyPoint start = [128] →
      ∀ id, keyRangeContains (some ⟨start, []⟩) id = decide ([128] ≤ keyPoint id) := by
    intro start point id
    have stop : endPoint (some ⟨start, []⟩) = ⊤ := rfl
    rw [Bool.eq_iff_iff, keyRangeContains_iff, span, stop, decide_eq_true_iff]
    simp [startPoint, point]
  have above := fromStart [0x80, 0] rfl
  refine ⟨fun id => ?_, fun id => ?_, by decide⟩
  · by_cases low : keyPoint id < [128]
    · simp [emptyShardSplit, below, nothing, above, low, not_le.mpr low]
    · simp [emptyShardSplit, below, nothing, above, low, not_lt.mp low]
  · rw [fromStart [0x80] rfl, nothing, above]
    simp

end Vitess.Key
