import Vitess.Replication.ReplicationStatus

/-!
# Emergency reparent candidates

`FindValidEmergencyReparentCandidates` of `go/vt/vtctl/reparentutil/replication.go`
decodes each tablet's status after replication stopped and checks that the relay
logs are either all GTID-based or none. In the GTID-based case a tablet is a
candidate only when `FindErrantGTIDs` finds nothing errant in its relay log
against the other tablets; the positions of primaries are added last.

Go iterates its maps in an unspecified order; here they are iterated in the
order of their entries, which decides only which of several failures is
reported.
-/

namespace Vitess.Vtctl

open Vitess.Replication Vitess.IntervalList

/-- `replicationdatapb.StopReplicationStatus`, with the status after the stop. -/
structure StopReplicationStatus where
  after : StatusProto

/-- `replicationdatapb.PrimaryStatus`, with its executed position. -/
structure PrimaryStatus where
  position : List Char

/-- How `FindValidEmergencyReparentCandidates` fails. -/
inductive CandidatesError where
  /-- A panic of `ProtoToReplicationStatus`. -/
  | statusPanic (panic : StatusPanic)
  /-- `encountered tablet %v with no relay log position, when at least one other
  tablet in the status map has GTID based relay log positions`. -/
  | noRelayLogPosition (tabletAlias : String)
  /-- `encountered mix of GTID-based and non GTID-based relay logs`. -/
  | mixedRelayLogs
  /-- `we got a filled-in relay log position, but it's not of type
  Mysql56GTIDSet, even though we've determined we need to use GTID based
  assesment`. -/
  | notMysql56RelayLog
  /-- The error, or a panic, of `FindErrantGTIDs`. -/
  | errantGTIDs (err : ErrantGTIDsError)
  /-- `could not decode a primary status executed position for tablet %v: %v`. -/
  | primaryPosition (tabletAlias : String) (err : PositionError)

section Candidates

variable (sortFunc : List Interval → List Interval)

/-- The first loop: each tablet's status decoded by `ProtoToReplicationStatus`. -/
def buildReplicationStatusMap (statusMap : AList fun _ : String => StopReplicationStatus) :
    Except CandidatesError (AList fun _ : String => ReplicationStatus) :=
  statusMap.entries.foldlM (fun replicationStatusMap entry =>
    (fun status => replicationStatusMap.insert entry.1 status) <$>
      (protoToReplicationStatus sortFunc entry.2.after).mapError .statusPanic) ∅

/-- The statuses of every tablet but one, as the loop collects them. -/
def otherStatuses (statuses : List (Σ _ : String, ReplicationStatus)) (tabletAlias : String) :
    List ReplicationStatus :=
  (statuses.filter fun entry => entry.1 != tabletAlias).map (·.2)

/-- The body of the loop over the statuses: the tablet's position, or `none`
when it is skipped for errant GTIDs. -/
def candidatePosition (isGTIDBased : Bool) (statuses : List (Σ _ : String, ReplicationStatus))
    (tabletAlias : String) (status : ReplicationStatus) : Except CandidatesError (Option Position) :=
  if !isGTIDBased then .ok (some status.position)
  else
    match status.relayLogPosition.mysql56GTIDSet? with
    | none => .error .notMysql56RelayLog
    | some relayLogGTIDSet =>
      match status.findErrantGTIDs (otherStatuses statuses tabletAlias) with
      | .error err => .error (.errantGTIDs err)
      | .ok errantGTIDs =>
        if (errantGTIDs.map (·.entries.length)).getD 0 ≠ 0 then .ok none
        else .ok (some ⟨some (.mysql56 relayLogGTIDSet)⟩)

/-- The loop over the statuses: the positions of the tablets not skipped. -/
def candidatePositions (isGTIDBased : Bool) (statuses : List (Σ _ : String, ReplicationStatus)) :
    Except CandidatesError (AList fun _ : String => Position) :=
  KeyedFold.insertEach (candidatePosition isGTIDBased statuses) statuses ∅

/-- The last loop: the executed position of each primary, decoded. -/
def addPrimaryPositions (primaryStatusMap : AList fun _ : String => PrimaryStatus)
    (positionMap : AList fun _ : String => Position) :
    Except CandidatesError (AList fun _ : String => Position) :=
  primaryStatusMap.entries.foldlM (fun positionMap entry =>
    (fun executedPosition => positionMap.insert entry.1 executedPosition) <$>
      (decodePosition sortFunc entry.2.position).mapError (.primaryPosition entry.1)) positionMap

/-- `FindValidEmergencyReparentCandidates`. -/
def findValidEmergencyReparentCandidates
    (statusMap : AList fun _ : String => StopReplicationStatus)
    (primaryStatusMap : AList fun _ : String => PrimaryStatus) :
    Except CandidatesError (AList fun _ : String => Position) := do
  let replicationStatusMap ← buildReplicationStatusMap sortFunc statusMap
  let statuses := replicationStatusMap.entries
  let isGTIDBased := statuses.any fun entry => entry.2.relayLogPosition.mysql56GTIDSet?.isSome
  let isNonGTIDBased := statuses.any fun entry => entry.2.relayLogPosition.mysql56GTIDSet?.isNone
  -- the first tablet without a relay log position is reported
  if isGTIDBased then
    if let some entry := statuses.find? fun entry => entry.2.relayLogPosition.isZero then
      throw (.noRelayLogPosition entry.1)
  if isGTIDBased && isNonGTIDBased then
    throw .mixedRelayLogs
  let positionMap ← candidatePositions isGTIDBased statuses
  addPrimaryPositions sortFunc primaryStatusMap positionMap

/-- A GTID-based tablet is kept with its relay-log set exactly when
`FindErrantGTIDs` reports nothing against the other tablets. -/
theorem candidatePosition_of_mysql56 {statuses : List (Σ _ : String, ReplicationStatus)}
    {tabletAlias : String} {status : ReplicationStatus} {relayLogGTIDSet : Mysql56GTIDSet}
    {errant : Option Mysql56GTIDSet}
    (relay : status.relayLogPosition.mysql56GTIDSet? = some relayLogGTIDSet)
    (found : status.findErrantGTIDs (otherStatuses statuses tabletAlias) = .ok errant) :
    candidatePosition true statuses tabletAlias status =
      .ok (if (errant.map (·.entries.length)).getD 0 ≠ 0 then none
        else some ⟨some (.mysql56 relayLogGTIDSet)⟩) := by
  simp only [candidatePosition, Bool.not_true, Bool.false_eq_true, if_false, relay, found]
  split_ifs <;> rfl

/-- When every tablet's relay log is a MySQL 5.6 set, the checks on the relay
logs pass: the candidates are the tablets the loop keeps, and the primaries. -/
theorem findValidEmergencyReparentCandidates_of_mysql56
    {statusMap : AList fun _ : String => StopReplicationStatus}
    {replicationStatusMap : AList fun _ : String => ReplicationStatus}
    (primaryStatusMap : AList fun _ : String => PrimaryStatus)
    (built : buildReplicationStatusMap sortFunc statusMap = .ok replicationStatusMap)
    (allMysql56 : ∀ entry ∈ replicationStatusMap.entries,
      (entry.2.relayLogPosition.mysql56GTIDSet?).isSome)
    (nonempty : replicationStatusMap.entries ≠ []) :
    findValidEmergencyReparentCandidates sortFunc statusMap primaryStatusMap =
      candidatePositions true replicationStatusMap.entries >>=
        addPrimaryPositions sortFunc primaryStatusMap := by
  have gtidBased : replicationStatusMap.entries.any
      (fun entry => (entry.2.relayLogPosition.mysql56GTIDSet?).isSome) = true := by
    obtain ⟨entry, rest, entries⟩ := List.exists_cons_of_ne_nil nonempty
    have first : entry ∈ replicationStatusMap.entries := by
      rw [entries]
      exact List.mem_cons_self
    exact List.any_eq_true.mpr ⟨entry, first, allMysql56 entry first⟩
  have noneOther : replicationStatusMap.entries.any
      (fun entry => (entry.2.relayLogPosition.mysql56GTIDSet?).isNone) = false := by
    rw [List.any_eq_false]
    intro entry member
    simpa [Option.isNone_iff_eq_none, ← Option.ne_none_iff_isSome] using allMysql56 entry member
  -- a relay log holding a MySQL 5.6 set is not the zero position
  have noneZero : replicationStatusMap.entries.find?
      (fun entry => entry.2.relayLogPosition.isZero) = none := by
    rw [List.find?_eq_none]
    intro entry member
    have mysql56 := allMysql56 entry member
    unfold Position.mysql56GTIDSet? at mysql56
    unfold Position.isZero
    split at mysql56 <;> simp_all
  rw [findValidEmergencyReparentCandidates, built]
  dsimp only [bind, Except.bind]
  simp only [gtidBased, noneOther, noneZero]
  rfl

/-- A tablet among several with distinct aliases has another tablet to be checked
against. -/
theorem otherStatuses_ne_nil {statuses : List (Σ _ : String, ReplicationStatus)}
    (nodup : statuses.NodupKeys) (several : 2 ≤ statuses.length) (tabletAlias : String) :
    otherStatuses statuses tabletAlias ≠ [] := by
  obtain ⟨first, second, rest, rfl⟩ : ∃ first second rest, statuses = first :: second :: rest := by
    match statuses, several with
    | first :: second :: rest, _ => exact ⟨first, second, rest, rfl⟩
  have distinct : first.1 ≠ second.1 := fun same =>
    (List.nodupKeys_cons.mp nodup).1 (same ▸ List.mem_keys_of_mem List.mem_cons_self)
  by_cases isFirst : first.1 = tabletAlias
  · -- the second tablet is another one
    have kept : second ∈ (first :: second :: rest).filter fun entry => entry.1 != tabletAlias := by
      simp only [List.mem_filter, List.mem_cons, true_or, or_true, true_and, bne_iff_ne, ne_eq]
      exact fun same => distinct (isFirst.trans same.symm)
    exact List.ne_nil_of_mem (List.mem_map_of_mem kept)
  · have kept : first ∈ (first :: second :: rest).filter fun entry => entry.1 != tabletAlias := by
      simp only [List.mem_filter, List.mem_cons, true_or, true_and, bne_iff_ne, ne_eq]
      exact isFirst
    exact List.ne_nil_of_mem (List.mem_map_of_mem kept)

/-- When every tablet's relay log is a tidy MySQL 5.6 set and there are at least
two tablets, a tablet is a candidate exactly when no GTID of its relay log is
errant against the other tablets. -/
theorem findValidEmergencyReparentCandidates_exact
    {statusMap : AList fun _ : String => StopReplicationStatus}
    {replicationStatusMap : AList fun _ : String => ReplicationStatus}
    (built : buildReplicationStatusMap sortFunc statusMap = .ok replicationStatusMap)
    (tidyRelays : ∀ entry ∈ replicationStatusMap.entries,
      ∃ set, entry.2.relayLogPosition.mysql56GTIDSet? = some set ∧ set.Tidy)
    (several : 2 ≤ replicationStatusMap.entries.length) :
    ∃ positionMap, findValidEmergencyReparentCandidates sortFunc statusMap ∅ = .ok positionMap ∧
      ∀ entry ∈ replicationStatusMap.entries, ((positionMap.lookup entry.1).isSome ↔
        ∀ sid n, ¬ entry.2.ErrantGTID (otherStatuses replicationStatusMap.entries entry.1) sid n) := by
  -- the tablets each one is checked against have tidy relay logs
  have othersTidy : ∀ entry ∈ replicationStatusMap.entries,
      ∀ other ∈ otherStatuses replicationStatusMap.entries entry.1,
        ∃ set, other.relayLogPosition.mysql56GTIDSet? = some set ∧ set.Tidy := by
    intro entry _ other member
    simp only [otherStatuses, List.mem_map, List.mem_filter] at member
    obtain ⟨source, ⟨isMember, -⟩, rfl⟩ := member
    exact tidyRelays source isMember
  -- each check succeeds, and keeps the tablet exactly when nothing is errant
  have checked : ∀ entry ∈ replicationStatusMap.entries, ∃ outcome,
      candidatePosition true replicationStatusMap.entries entry.1 entry.2 = .ok outcome ∧
      (outcome.isSome ↔
        ∀ sid n, ¬ entry.2.ErrantGTID (otherStatuses replicationStatusMap.entries entry.1) sid n) := by
    intro entry member
    obtain ⟨relayLogSet, relay, tidy⟩ := tidyRelays entry member
    obtain ⟨errant, found, noneIff, denotes⟩ := findErrantGTIDs_exact relay tidy
      (othersTidy entry member)
      (otherStatuses_ne_nil replicationStatusMap.nodupKeys several entry.1)
    refine ⟨_, candidatePosition_of_mysql56 relay found, ?_⟩
    cases errant with
    | none => simpa using noneIff.mp rfl
    | some reported =>
      -- something is errant, and the set reported holds it
      have someErrant : ¬ ∀ sid n,
          ¬ entry.2.ErrantGTID (otherStatuses replicationStatusMap.entries entry.1) sid n :=
        fun nothing => by cases noneIff.mpr nothing
      simp only [not_forall, not_not] at someErrant
      obtain ⟨sid, n, isErrant⟩ := someErrant
      have held : reported.Denotes sid n := (denotes reported rfl sid n).mpr isErrant
      have stored : reported.entries.length ≠ 0 := fun empty => by
        have absent : reported.lookup sid = none := by
          change reported.entries.dlookup sid = none
          rw [List.length_eq_zero_iff.mp empty]
          rfl
        simp [Mysql56GTIDSet.Denotes, absent, Denotes] at held
      simp only [Option.map_some, Option.getD_some, stored, ne_eq, not_false_eq_true, if_true,
        Option.isSome_none, Bool.false_eq_true, false_iff, not_forall, not_not]
      exact ⟨sid, n, isErrant⟩
  obtain ⟨positionMap, looped, found, -⟩ := KeyedFold.lookup_insertEach
    (candidatePosition true replicationStatusMap.entries) replicationStatusMap.entries ∅
    replicationStatusMap.nodupKeys fun entry member =>
      (checked entry member).elim fun outcome ran => ⟨outcome, ran.1⟩
  have allMysql56 : ∀ entry ∈ replicationStatusMap.entries,
      (entry.2.relayLogPosition.mysql56GTIDSet?).isSome := fun entry member => by
    obtain ⟨set, relay, -⟩ := tidyRelays entry member
    simp [relay]
  refine ⟨positionMap, ?_, fun entry member => ?_⟩
  · rw [findValidEmergencyReparentCandidates_of_mysql56 sortFunc ∅ built allMysql56
      (List.ne_nil_of_length_pos (by omega)), candidatePositions, looped]
    rfl
  · obtain ⟨outcome, ran, keptIff⟩ := checked entry member
    rw [found entry member outcome ran, AList.lookup_empty, Option.or_none]
    exact keptIff

end Candidates

/-! ### A relay log whose intervals overlap -/

/-- The relay-log set `3e11fa47-71ca-11e1-9e33-c80aa9429562:1-5:2-3`, as the
parser keeps it: both intervals, sorted by start. -/
def overlappingRelayLog : Mysql56GTIDSet :=
  AList.insert exampleSID [⟨1, 5⟩, ⟨2, 3⟩] ∅

/-- The relay-log set `3e11fa47-71ca-11e1-9e33-c80aa9429562:1-3:4-5`. -/
def splitRelayLog : Mysql56GTIDSet :=
  AList.insert exampleSID [⟨1, 3⟩, ⟨4, 5⟩] ∅

/-- A stopped tablet whose position and relay-log position are both `text`. -/
def gtidTablet (text : List Char) : StopReplicationStatus :=
  ⟨⟨text, text, [], [], [], []⟩⟩

/-- What `ProtoToReplicationStatus` makes of such a tablet. -/
def gtidStatus (set : Mysql56GTIDSet) : ReplicationStatus :=
  ⟨⟨some (.mysql56 set)⟩, ⟨some (.mysql56 set)⟩, ⟨none⟩, ⟨none⟩, ⟨none⟩, SID.zero⟩

/-- Two tablets whose relay logs hold the same GTIDs `1..5` of one server, one
written `1-5:2-3` and the other `1-3:4-5`. The first has no errant GTID, yet
`Difference` trims `1-5` against `1-3` to `4-5`, removes it against `4-5`, and
then compares `2-3` with `4-5` only, keeping it: `FindErrantGTIDs` reports
`2-3`, and the tablet is left out of the candidates. -/
theorem overlapping_relay_log_reported_errant :
    (∀ sid n, ¬ (gtidStatus overlappingRelayLog).ErrantGTID [gtidStatus splitRelayLog] sid n) ∧
    (gtidStatus overlappingRelayLog).findErrantGTIDs [gtidStatus splitRelayLog] =
      .ok (some (AList.insert exampleSID [⟨2, 3⟩] ∅)) ∧
    findValidEmergencyReparentCandidates startSort
        (AList.insert "overlapping"
          (gtidTablet "MySQL56/3e11fa47-71ca-11e1-9e33-c80aa9429562:1-5:2-3".toList)
          (AList.insert "split"
            (gtidTablet "MySQL56/3e11fa47-71ca-11e1-9e33-c80aa9429562:1-3:4-5".toList) ∅)) ∅ =
      .ok (AList.insert "split" ⟨some (.mysql56 splitRelayLog)⟩ ∅) := by
  -- the loop for the one SID leaves 2-3 of the first list, and nothing of the second
  have loopAB : DiffLoop.run ⟨⟨1, 5⟩, [], [⟨2, 3⟩], ⟨1, 3⟩, [⟨4, 5⟩]⟩ = some ([⟨2, 3⟩], []) := by
    rw [DiffLoop.run_of_next rfl, DiffLoop.run_of_next rfl, DiffLoop.run_of_exit rfl]
    rfl
  have loopBA : DiffLoop.run ⟨⟨1, 3⟩, [], [⟨4, 5⟩], ⟨1, 5⟩, [⟨2, 3⟩]⟩ = some ([], []) := by
    rw [DiffLoop.run_of_next rfl, DiffLoop.run_of_exit rfl]
    rfl
  have diffAB : overlappingRelayLog.difference splitRelayLog =
      .ok (AList.insert exampleSID [⟨2, 3⟩] ∅) := by
    have stored : differenceIntervals [⟨1, 5⟩, ⟨2, 3⟩] (some [⟨1, 3⟩, ⟨4, 5⟩]) =
        .ok (some [⟨2, 3⟩]) := by
      rw [differenceIntervals, loopAB]
      rfl
    rw [Mysql56GTIDSet.difference,
      show overlappingRelayLog.entries = [⟨exampleSID, [⟨1, 5⟩, ⟨2, 3⟩]⟩] from rfl,
      KeyedFold.storeEach_cons, show splitRelayLog.lookup exampleSID = some [⟨1, 3⟩, ⟨4, 5⟩] from
        AList.lookup_insert _, stored]
    rfl
  have diffBA : splitRelayLog.difference overlappingRelayLog = .ok ∅ := by
    have stored : differenceIntervals [⟨1, 3⟩, ⟨4, 5⟩] (some [⟨1, 5⟩, ⟨2, 3⟩]) = .ok none := by
      rw [differenceIntervals, loopBA]
      rfl
    rw [Mysql56GTIDSet.difference,
      show splitRelayLog.entries = [⟨exampleSID, [⟨1, 3⟩, ⟨4, 5⟩]⟩] from rfl,
      KeyedFold.storeEach_cons, show overlappingRelayLog.lookup exampleSID = some [⟨1, 5⟩, ⟨2, 3⟩] from
        AList.lookup_insert _, stored]
    rfl
  have foldedAB : [splitRelayLog].foldlM Mysql56GTIDSet.difference
      (overlappingRelayLog.erase SID.zero) = .ok (AList.insert exampleSID [⟨2, 3⟩] ∅) := by
    rw [show overlappingRelayLog.erase SID.zero = overlappingRelayLog from rfl, List.foldlM_cons,
      diffAB]
    rfl
  have foldedBA : [overlappingRelayLog].foldlM Mysql56GTIDSet.difference
      (splitRelayLog.erase SID.zero) = .ok ∅ := by
    rw [show splitRelayLog.erase SID.zero = splitRelayLog from rfl, List.foldlM_cons, diffBA]
    rfl
  have errantAB : (gtidStatus overlappingRelayLog).findErrantGTIDs [gtidStatus splitRelayLog] =
      .ok (some (AList.insert exampleSID [⟨2, 3⟩] ∅)) := by
    rw [findErrantGTIDs_of_mysql56 (List.cons_ne_nil _ []) rfl
      (rfl : [gtidStatus splitRelayLog].mapM (·.relayLogPosition.mysql56GTIDSet?) =
        some [splitRelayLog]) foldedAB]
    rfl
  have errantBA : (gtidStatus splitRelayLog).findErrantGTIDs [gtidStatus overlappingRelayLog] =
      .ok none := by
    rw [findErrantGTIDs_of_mysql56 (List.cons_ne_nil _ []) rfl
      (rfl : [gtidStatus overlappingRelayLog].mapM (·.relayLogPosition.mysql56GTIDSet?) =
        some [overlappingRelayLog]) foldedBA]
    rfl
  refine ⟨fun sid n errant => ?_, errantAB, ?_⟩
  · -- a GTID of the first relay log lies in the second
    obtain ⟨⟨set, found, denoted⟩, -, absent⟩ := errant
    cases found
    apply absent (gtidStatus splitRelayLog) List.mem_cons_self splitRelayLog rfl
    by_cases same : sid = exampleSID
    · subst same
      simp only [Mysql56GTIDSet.Denotes, overlappingRelayLog, splitRelayLog, AList.lookup_insert,
        Option.getD_some, denotes_cons, denotes_nil, Interval.Mem, or_false] at denoted ⊢
      omega
    · simp only [Mysql56GTIDSet.Denotes, overlappingRelayLog, AList.lookup_insert_ne same,
        AList.lookup_empty, Option.getD_none, denotes_nil] at denoted
  · have built : buildReplicationStatusMap startSort
        (AList.insert "overlapping"
          (gtidTablet "MySQL56/3e11fa47-71ca-11e1-9e33-c80aa9429562:1-5:2-3".toList)
          (AList.insert "split"
            (gtidTablet "MySQL56/3e11fa47-71ca-11e1-9e33-c80aa9429562:1-3:4-5".toList) ∅)) =
        .ok (AList.insert "split" (gtidStatus splitRelayLog)
          (AList.insert "overlapping" (gtidStatus overlappingRelayLog) ∅)) := rfl
    have statuses : (AList.insert "split" (gtidStatus splitRelayLog)
        (AList.insert "overlapping" (gtidStatus overlappingRelayLog) ∅) :
          AList fun _ : String => ReplicationStatus).entries =
        [⟨"split", gtidStatus splitRelayLog⟩, ⟨"overlapping", gtidStatus overlappingRelayLog⟩] := rfl
    rw [findValidEmergencyReparentCandidates_of_mysql56 startSort ∅ built (by rw [statuses]; decide)
      (by rw [statuses]; exact List.cons_ne_nil _ _)]
    -- each tablet is checked against the other one
    have splitChecked : (gtidStatus splitRelayLog).findErrantGTIDs
        (otherStatuses [⟨"split", gtidStatus splitRelayLog⟩,
          ⟨"overlapping", gtidStatus overlappingRelayLog⟩] "split") = .ok none := errantBA
    have overlappingChecked : (gtidStatus overlappingRelayLog).findErrantGTIDs
        (otherStatuses [⟨"split", gtidStatus splitRelayLog⟩,
          ⟨"overlapping", gtidStatus overlappingRelayLog⟩] "overlapping") =
        .ok (some (AList.insert exampleSID [⟨2, 3⟩] ∅)) := errantAB
    rw [statuses, candidatePositions, KeyedFold.insertEach]
    simp only [List.foldlM_cons, List.foldlM_nil, candidatePosition_of_mysql56 rfl splitChecked,
      candidatePosition_of_mysql56 rfl overlappingChecked]
    rfl

end Vitess.Vtctl
