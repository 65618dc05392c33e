import Vitess.Replication.Mysql56Union

/-!
# Comparing MySQL 5.6 GTID sets by what they hold

`Contains` and `Equal` of `go/mysql/replication/mysql56_gtid_set.go` compare two
sets interval list by interval list, never GTID by GTID: `Contains` looks for each
interval of the other set inside one of our intervals, searching forward only,
and `Equal` compares the stored lists. On canonical sets, the form `Union` and
`AddGTID` keep, both are exact: `Contains` holds when every GTID of the other set
is ours (`contains_iff_denotes`), and `Equal` when the two sets hold the same
GTIDs and no SID has an empty list (`equal_iff_denotes`).
-/

namespace Vitess.Replication

open Vitess.IntervalList

@[simp] theorem intervalContains_iff {iv other : Interval} :
    intervalContains iv other = true ↔ iv.Covers other := by
  simp [intervalContains, Interval.Covers]

/-! ### The search of `Contains` -/

/-- What `seek` returns: the intervals from one that covers `iv` on. -/
theorem seek_eq_some {iv : Interval} :
    ∀ {mine rest : List Interval}, seek iv mine = some rest →
      ∃ skipped head tail, mine = skipped ++ head :: tail ∧ rest = head :: tail ∧ head.Covers iv
  | [], _, found => by simp [seek] at found
  | m :: ms, rest, found => by
    rw [seek] at found
    split_ifs at found with covers
    · cases found
      exact ⟨[], m, ms, rfl, rfl, intervalContains_iff.mp covers⟩
    · obtain ⟨skipped, head, tail, split, rfl, headCovers⟩ := seek_eq_some found
      exact ⟨m :: skipped, head, tail, by rw [split, List.cons_append], rfl, headCovers⟩

/-- `seek` fails only when no interval covers `iv`. -/
theorem seek_eq_none {iv : Interval} :
    ∀ {mine : List Interval}, seek iv mine = none → ∀ m ∈ mine, ¬ m.Covers iv
  | [], _ => by simp
  | m :: ms, missing => by
    rw [seek] at missing
    split_ifs at missing with covers
    rw [Bool.not_eq_true, ← Bool.not_eq_true, intervalContains_iff] at covers
    rintro m' (_ | ⟨_, later⟩)
    · exact covers
    · exact seek_eq_none missing m' later

/-- Whatever `coveredFrom` accepts is denoted: each interval of `others` lies in
an interval that `seek` found, and the search goes on among the intervals from
there. -/
theorem denotes_of_coveredFrom :
    ∀ {mine others : List Interval}, coveredFrom mine others = true →
      ∀ x, Denotes others x → Denotes mine x
  | _, [], _, x, inside => absurd inside (denotes_nil x)
  | mine, iv :: others, covered, x, inside => by
    rw [coveredFrom] at covered
    split at covered
    · cases covered
    · rename_i rest found
      obtain ⟨skipped, head, tail, rfl, rfl, headCovers⟩ := seek_eq_some found
      have fromHead : ∀ y, Denotes (head :: tail) y → Denotes (skipped ++ head :: tail) y :=
        fun y point => denotes_append.mpr (.inr point)
      rcases denotes_cons.mp inside with first | later
      · exact fromHead x (denotes_cons.mpr (.inl (headCovers.mem first)))
      · exact fromHead x (denotes_of_coveredFrom covered x later)

/-- Over canonical lists `coveredFrom` accepts every list whose points are all
denoted. The interval covering `iv` exists by `covers_of_subset`; an interval
that `seek` passes over holds no later point of `others`, since it ends before
the covering interval starts and those points lie past `iv`. -/
theorem coveredFrom_of_denotes :
    ∀ {mine others : List Interval}, Canonical mine → Canonical others →
      (∀ x, Denotes others x → Denotes mine x) → coveredFrom mine others = true
  | mine, [], _, _, _ => by rw [coveredFrom]
  | mine, iv :: others, canonical, othersCanonical, within => by
    obtain ⟨nonempty, -, restCanonical⟩ := Canonical.cons_iff.mp othersCanonical
    cases found : seek iv mine with
    | none =>
      obtain ⟨cover, isMember, covers⟩ := canonical.covers_of_subset nonempty
        fun x inside => within x (denotes_cons.mpr (.inl inside))
      exact absurd covers (seek_eq_none found cover isMember)
    | some rest =>
      obtain ⟨skipped, head, tail, rfl, rfl, headCovers⟩ := seek_eq_some found
      obtain ⟨-, suffixCanonical, apart⟩ := Canonical.append_iff.mp canonical
      rw [coveredFrom, found]
      apply coveredFrom_of_denotes suffixCanonical restCanonical
      intro x later
      have beyond : iv.stop + 1 < x := othersCanonical.later_point_gt later
      rcases denotes_append.mp (within x (denotes_cons.mpr (.inr later))) with early | kept
      · obtain ⟨m, isSkipped, inside⟩ := early
        have separated : m.stop + 1 < head.start := apart m isSkipped head List.mem_cons_self
        have := inside.2
        have := headCovers.1
        unfold Interval.Nonempty at nonempty
        omega
      · exact kept

/-- On canonical lists `coveredFrom` decides inclusion of the denoted points. -/
theorem coveredFrom_iff {mine others : List Interval} (canonical : Canonical mine)
    (othersCanonical : Canonical others) :
    coveredFrom mine others = true ↔ ∀ x, Denotes others x → Denotes mine x :=
  ⟨denotes_of_coveredFrom, coveredFrom_of_denotes canonical othersCanonical⟩

/-! ### Whole sets -/

/-- The list `set[sid]` of a SID the set holds. -/
theorem Mysql56GTIDSet.denotes_of_lookup {set : Mysql56GTIDSet} {sid : SID}
    {intervals : List Interval} (found : set.lookup sid = some intervals) {n : ℤ} :
    set.Denotes sid n ↔ IntervalList.Denotes intervals n := by
  rw [Mysql56GTIDSet.Denotes, found, Option.getD_some]

/-- A SID the set lacks has no GTID. -/
theorem Mysql56GTIDSet.not_denotes_of_lookup {set : Mysql56GTIDSet} {sid : SID}
    (absent : set.lookup sid = none) (n : ℤ) : ¬ set.Denotes sid n := by
  rw [Mysql56GTIDSet.Denotes, absent, Option.getD_none]
  exact denotes_nil n

/-- On canonical sets, `Contains` holds exactly when every GTID of the other set
is one of ours. -/
theorem contains_iff_denotes {set other : Mysql56GTIDSet} (canonical : set.Canonical)
    (otherCanonical : other.Canonical) :
    set.contains other = true ↔ ∀ sid n, other.Denotes sid n → set.Denotes sid n := by
  rw [Mysql56GTIDSet.contains, List.all_eq_true]
  constructor
  · intro covered sid n inside
    cases found : other.lookup sid with
    | none => exact absurd inside (Mysql56GTIDSet.not_denotes_of_lookup found n)
    | some intervals =>
      exact denotes_of_coveredFrom (covered ⟨sid, intervals⟩ (AList.mem_lookup_iff.mp found)) n
        ((Mysql56GTIDSet.denotes_of_lookup found).mp inside)
  · intro within entry member
    have found : other.lookup entry.1 = some entry.2 := AList.mem_lookup_iff.mpr member
    apply coveredFrom_of_denotes (canonical.getD entry.1).1 (otherCanonical entry member).1
    intro x inside
    exact within entry.1 x ((Mysql56GTIDSet.denotes_of_lookup found).mpr inside)

/-- A SID of a canonical set whose lists are not empty is a key of the set
exactly when it has a GTID: a nonempty first interval holds its start. -/
theorem Mysql56GTIDSet.mem_iff_denotes {set : Mysql56GTIDSet} (canonical : set.Canonical)
    (nonempty : ∀ entry ∈ set.entries, entry.2 ≠ []) (sid : SID) :
    sid ∈ set ↔ ∃ n, set.Denotes sid n := by
  rw [← AList.lookup_isSome]
  cases found : set.lookup sid with
  | none => simp [Mysql56GTIDSet.not_denotes_of_lookup found]
  | some intervals =>
    simp only [Option.isSome_some, true_iff]
    cases intervals with
    | nil => exact absurd rfl (nonempty _ (AList.mem_lookup_iff.mp found))
    | cons first rest =>
      have firstNonempty := (Canonical.cons_iff.mp (canonical.lookup found).1).1
      exact ⟨first.start, (Mysql56GTIDSet.denotes_of_lookup found).mpr
        (denotes_cons.mpr (.inl (Interval.mem_start firstNonempty)))⟩

/-- Two sets with the same keys have as many entries. -/
theorem Mysql56GTIDSet.length_eq_of_mem_iff {set other : Mysql56GTIDSet}
    (same : ∀ sid, sid ∈ set ↔ sid ∈ other) : set.entries.length = other.entries.length := by
  have perm : set.keys.Perm other.keys :=
    (List.perm_ext_iff_of_nodup set.keys_nodup other.keys_nodup).mpr same
  simpa [AList.keys, List.keys] using perm.length_eq

/-- On canonical sets whose lists are not empty, `Equal` holds exactly when the
two sets hold the same GTIDs. The lists of a shared SID are then equal by
`Canonical.eq_of_denotes`, and the keys are the SIDs with a GTID. -/
theorem equal_iff_denotes {set other : Mysql56GTIDSet} (canonical : set.Canonical)
    (otherCanonical : other.Canonical) (nonempty : ∀ entry ∈ set.entries, entry.2 ≠ [])
    (otherNonempty : ∀ entry ∈ other.entries, entry.2 ≠ []) :
    set.equal other = true ↔ ∀ sid n, set.Denotes sid n ↔ other.Denotes sid n := by
  simp only [Mysql56GTIDSet.equal, Bool.and_eq_true, beq_iff_eq, List.all_eq_true]
  constructor
  · rintro ⟨sameLength, sameLists⟩
    have stored : ∀ {sid intervals}, set.lookup sid = some intervals →
        (other.lookup sid).getD [] = intervals := fun found =>
      (sameLists _ (AList.mem_lookup_iff.mp found)).symm
    -- every key of ours is a key of the other set, and there are as many of them
    have subset : set.keys ⊆ other.keys := by
      intro sid member
      obtain ⟨intervals, found⟩ := Option.isSome_iff_exists.mp (AList.lookup_isSome.mpr member)
      rw [← AList.mem_keys, ← AList.lookup_isSome]
      cases otherFound : other.lookup sid with
      | none =>
        have empty := stored found
        rw [otherFound, Option.getD_none] at empty
        exact absurd empty.symm (nonempty _ (AList.mem_lookup_iff.mp found))
      | some _ => rfl
    have perm : set.keys.Perm other.keys :=
      (List.subperm_of_subset set.keys_nodup subset).perm_of_length_le
        (by simpa [AList.keys, List.keys] using sameLength.ge)
    intro sid n
    cases found : set.lookup sid with
    | some intervals =>
      rw [Mysql56GTIDSet.denotes_of_lookup found, Mysql56GTIDSet.Denotes, stored found]
    | none =>
      have absent : other.lookup sid = none := by
        rw [AList.lookup_eq_none]
        intro member
        have ours := AList.lookup_isSome.mpr (AList.mem_keys.mp (perm.mem_iff.mpr (AList.mem_keys.mpr member)))
        rw [found] at ours
        cases ours
      simp [Mysql56GTIDSet.not_denotes_of_lookup found, Mysql56GTIDSet.not_denotes_of_lookup absent]
  · intro same
    have sameKeys : ∀ sid, sid ∈ set ↔ sid ∈ other := fun sid => by
      rw [Mysql56GTIDSet.mem_iff_denotes canonical nonempty,
        Mysql56GTIDSet.mem_iff_denotes otherCanonical otherNonempty]
      exact exists_congr (same sid)
    refine ⟨Mysql56GTIDSet.length_eq_of_mem_iff sameKeys, fun entry member => ?_⟩
    have found : set.lookup entry.1 = some entry.2 := AList.mem_lookup_iff.mpr member
    apply Canonical.eq_of_denotes (canonical entry member).1 (otherCanonical.getD entry.1).1
    intro x
    rw [← Mysql56GTIDSet.denotes_of_lookup found]
    exact same entry.1 x

/-- On canonical sets `Contains` is inclusion of the GTIDs the sets hold, and on
canonical sets without empty lists `Equal` is equality of them: the two checks,
which compare stored intervals, never tell apart sets that hold the same GTIDs. -/
theorem contains_equal_exact {set other : Mysql56GTIDSet} (canonical : set.Canonical)
    (otherCanonical : other.Canonical) :
    (set.contains other = true ↔ ∀ sid n, other.Denotes sid n → set.Denotes sid n) ∧
      ((∀ entry ∈ set.entries, entry.2 ≠ []) → (∀ entry ∈ other.entries, entry.2 ≠ []) →
        (set.equal other = true ↔ ∀ sid n, set.Denotes sid n ↔ other.Denotes sid n)) :=
  ⟨contains_iff_denotes canonical otherCanonical,
    fun nonempty otherNonempty => equal_iff_denotes canonical otherCanonical nonempty otherNonempty⟩

theorem contains_equal_exact_gapped :
    gappedSet.Canonical ∧ Mysql56GTIDSet.Canonical (AList.insert exampleSID [⟨2, 3⟩] ∅) ∧
      ((gappedSet.contains (AList.insert exampleSID [⟨2, 3⟩] ∅) = true ↔
          ∀ sid n, Mysql56GTIDSet.Denotes (AList.insert exampleSID [⟨2, 3⟩] ∅) sid n →
            gappedSet.Denotes sid n) ∧
        ((∀ entry ∈ gappedSet.entries, entry.2 ≠ []) →
          (∀ entry ∈ (AList.insert exampleSID [⟨2, 3⟩] ∅ : Mysql56GTIDSet).entries, entry.2 ≠ []) →
          (gappedSet.equal (AList.insert exampleSID [⟨2, 3⟩] ∅) = true ↔
            ∀ sid n, gappedSet.Denotes sid n ↔
              Mysql56GTIDSet.Denotes (AList.insert exampleSID [⟨2, 3⟩] ∅) sid n))) :=
  ⟨by decide, by decide, contains_equal_exact (by decide) (by decide)⟩

/-! ### `AddGTID` -/

/-- When a canonical set holds the GTID already, `AddGTID` returns the set itself. -/
theorem Mysql56GTIDSet.addGTID_of_denotes {set : Mysql56GTIDSet} (canonical : set.Canonical)
    {gtid : Mysql56GTID} (present : set.Denotes gtid.server gtid.sequence) :
    set.addGTID gtid = set := by
  have contained : set.containsGTID gtid = true :=
    (containsSequence_iff (canonical.getD gtid.server).1).mpr present
  rw [Mysql56GTIDSet.addGTID, if_pos contained]

/-- `AddGTID` on a canonical set holds the set's GTIDs and the new one. -/
theorem Mysql56GTIDSet.denotes_addGTID {set : Mysql56GTIDSet} (canonical : set.Canonical)
    (gtid : Mysql56GTID) (sid : SID) (n : ℤ) :
    (set.addGTID gtid).Denotes sid n ↔ set.Denotes sid n ∨ (sid = gtid.server ∧ n = gtid.sequence) := by
  by_cases present : set.Denotes gtid.server gtid.sequence
  · rw [Mysql56GTIDSet.addGTID_of_denotes canonical present]
    constructor
    · exact .inl
    · rintro (inside | ⟨rfl, rfl⟩)
      · exact inside
      · exact present
  · obtain ⟨others, merged, isMerged, -, points⟩ := addGTID_lookup canonical present
    by_cases same : sid = gtid.server
    · subst same
      rw [Mysql56GTIDSet.denotes_of_lookup isMerged, points]
      simp [Mysql56GTIDSet.Denotes]
    · rw [Mysql56GTIDSet.Denotes, others sid same]
      simp [Mysql56GTIDSet.Denotes, same]

/-- `AddGTID` of a positive sequence number keeps a set canonical: the new list
of the server is canonical, and its starts are points of the old list or the
GTID. -/
theorem Mysql56GTIDSet.canonical_addGTID {set : Mysql56GTIDSet} (canonical : set.Canonical)
    {gtid : Mysql56GTID} (positive : 1 ≤ gtid.sequence) : (set.addGTID gtid).Canonical := by
  by_cases present : set.Denotes gtid.server gtid.sequence
  · rwa [Mysql56GTIDSet.addGTID_of_denotes canonical present]
  obtain ⟨others, merged, isMerged, mergedCanonical, points⟩ := addGTID_lookup canonical present
  apply Mysql56GTIDSet.canonical_of_lookup
  intro sid intervals found
  by_cases same : sid = gtid.server
  · subst same
    rw [isMerged, Option.some.injEq] at found
    subst found
    refine ⟨mergedCanonical, fun iv member => ?_⟩
    rcases (points iv.start).mp ⟨iv, member, Interval.mem_start (mergedCanonical.1 iv member)⟩ with
      ⟨old, isOld, inside⟩ | atGTID
    · exact le_trans ((canonical.getD gtid.server).2 old isOld) inside.1
    · rw [atGTID]
      exact positive
  · rw [others sid same] at found
    exact canonical.lookup found

end Vitess.Replication
