import Vitess.Replication.Position
import Vitess.Replication.Difference

/-!
# Replication status and errant GTIDs

`go/mysql/replication/replication_status.go`: `ProtoToReplicationStatus` decodes
the positions of a status sent between tablets, and `FindErrantGTIDs` looks for
the GTIDs of a replica's relay log that no other replica has seen. It copies the
relay-log set without the source's own SID and subtracts each other replica's
relay-log set with `Difference`; an empty result is reported as nil.

On sets whose interval lists are sorted, disjoint and nonempty (`Tidy`, which
every normalized set is), each `Difference` is exact (`difference_denotes`), so
the result is exactly the errant GTIDs, and nil exactly when there are none
(`findErrantGTIDs_exact`).
-/

namespace Vitess.Replication

open Vitess.Go Vitess.IntervalList

/-- The zero `SID`, which a status keeps when it names no source. -/
def SID.zero : SID :=
  ⟨List.replicate 16 0, rfl⟩

/-- `ReplicationStatus`, with the fields the modelled functions read. -/
structure ReplicationStatus where
  position : Position
  relayLogPosition : Position
  filePosition : Position
  relayLogSourceBinlogEquivalentPosition : Position
  relayLogFilePosition : Position
  sourceUUID : SID

/-- `replicationdatapb.Status`, with the fields `ProtoToReplicationStatus`
decodes. -/
structure StatusProto where
  position : List Char
  relayLogPosition : List Char
  filePosition : List Char
  relayLogSourceBinlogEquivalentPosition : List Char
  relayLogFilePosition : List Char
  sourceUuid : List Char

/-- The panics of `ProtoToReplicationStatus`. -/
inductive StatusPanic where
  /-- `cannot decode <field>`, wrapping the error of `DecodePosition`. -/
  | cannotDecode (field : String) (err : PositionError)
  /-- `cannot decode SourceUUID`, wrapping the error of `ParseSID`. -/
  | cannotDecodeSourceUUID (err : ParseError)

section Proto

variable (sortFunc : List Interval → List Interval)

/-- `DecodePosition` of one field, panicking with the field's name. -/
def decodeStatusField (field : String) (s : List Char) : Except StatusPanic Position :=
  (decodePosition sortFunc s).mapError (.cannotDecode field)

/-- `ProtoToReplicationStatus`: the five positions in turn, then the source UUID
when there is one. -/
def protoToReplicationStatus (s : StatusProto) : Except StatusPanic ReplicationStatus := do
  let pos ← decodeStatusField sortFunc "Position" s.position
  let relayPos ← decodeStatusField sortFunc "RelayLogPosition" s.relayLogPosition
  let filePos ← decodeStatusField sortFunc "FilePosition" s.filePosition
  let fileRelayPos ← decodeStatusField sortFunc "RelayLogSourceBinlogEquivalentPosition"
    s.relayLogSourceBinlogEquivalentPosition
  let relayFilePos ← decodeStatusField sortFunc "RelayLogFilePosition" s.relayLogFilePosition
  let sid ← if s.sourceUuid.isEmpty then pure SID.zero
    else (parseSID s.sourceUuid).mapError .cannotDecodeSourceUUID
  pure ⟨pos, relayPos, filePos, fileRelayPos, relayFilePos, sid⟩

end Proto

/-! ### Errant GTIDs -/

/-- The type assertion `rp.GTIDSet.(Mysql56GTIDSet)`. -/
def Position.mysql56GTIDSet? (rp : Position) : Option Mysql56GTIDSet :=
  match rp.gtidSet with
  | some (.mysql56 set) => some set
  | _ => none

/-- How `FindErrantGTIDs` fails: the error it returns, or a panic. -/
inductive ErrantGTIDsError where
  /-- The error `errant GTIDs can only be computed on the MySQL flavor`. -/
  | notMysqlFlavor
  /-- The panic for another replica's status of another flavor. -/
  | otherFlavor
  /-- The panic of `Difference`. -/
  | difference (message : String)

/-- `ReplicationStatus.FindErrantGTIDs`; `none` is the nil set. -/
def ReplicationStatus.findErrantGTIDs (s : ReplicationStatus)
    (otherReplicaStatuses : List ReplicationStatus) :
    Except ErrantGTIDsError (Option Mysql56GTIDSet) :=
  if otherReplicaStatuses.isEmpty then .ok none
  else
    match s.relayLogPosition.mysql56GTIDSet? with
    | none => .error .notMysqlFlavor
    | some relayLogSet =>
      match otherReplicaStatuses.mapM (·.relayLogPosition.mysql56GTIDSet?) with
      | none => .error .otherFlavor
      | some otherSets =>
        -- the copy of the receiver's set skips the source's own SID
        let diffSet := relayLogSet.erase s.sourceUUID
        match otherSets.foldlM Mysql56GTIDSet.difference diffSet with
        | .error message => .error (.difference message)
        | .ok diffSet => .ok (if diffSet.entries.isEmpty then none else some diffSet)

/-- The GTID `(sid, n)` is errant in `s` against `others`: it is in `s`'s relay
log, not from `s`'s source, and in no other replica's relay log. -/
def ReplicationStatus.ErrantGTID (s : ReplicationStatus) (others : List ReplicationStatus)
    (sid : SID) (n : ℤ) : Prop :=
  (∃ set, s.relayLogPosition.mysql56GTIDSet? = some set ∧ set.Denotes sid n) ∧
    sid ≠ s.sourceUUID ∧
    ∀ other ∈ others, ∀ set, other.relayLogPosition.mysql56GTIDSet? = some set → ¬ set.Denotes sid n

/-! ### Exactness on tidy sets -/

theorem Mysql56GTIDSet.Normalized.tidy {set : Mysql56GTIDSet} (normalized : set.Normalized) :
    set.Tidy :=
  fun entry member => ⟨(normalized entry member).1, (normalized entry member).2.1⟩

theorem Mysql56GTIDSet.Tidy.erase {set : Mysql56GTIDSet} (tidy : set.Tidy) (sid : SID) :
    Mysql56GTIDSet.Tidy (set.erase sid) :=
  fun entry member => tidy entry ((List.kerase_sublist sid set.entries).subset member)

theorem Mysql56GTIDSet.denotes_erase {set : Mysql56GTIDSet} {source sid : SID} {n : ℤ} :
    Mysql56GTIDSet.Denotes (set.erase source) sid n ↔ set.Denotes sid n ∧ sid ≠ source := by
  by_cases same : sid = source
  · subst same
    simp [Mysql56GTIDSet.Denotes, AList.lookup_erase, Denotes]
  · simp [Mysql56GTIDSet.Denotes, AList.lookup_erase_ne same, same]

/-- A tidy set has no entry exactly when it denotes no GTID. -/
theorem Mysql56GTIDSet.Tidy.isEmpty_iff {set : Mysql56GTIDSet} (tidy : set.Tidy) :
    set.entries.isEmpty = true ↔ ∀ sid n, ¬ set.Denotes sid n := by
  constructor
  · intro empty sid n denoted
    rw [List.isEmpty_iff] at empty
    have absent : set.lookup sid = none := by
      change set.entries.dlookup sid = none
      rw [empty]
      rfl
    simp [Mysql56GTIDSet.Denotes, absent, Denotes] at denoted
  · intro nothing
    -- an entry's list is nonempty, and its first interval holds its start
    cases entries : set.entries with
    | nil => rfl
    | cons entry rest =>
      obtain ⟨sid, intervals⟩ := entry
      have member : (⟨sid, intervals⟩ : Sigma fun _ : SID => List Interval) ∈ set.entries := by
        rw [entries]
        exact List.mem_cons_self
      obtain ⟨nonempty, ordered⟩ := tidy _ member
      obtain ⟨iv, more, rfl⟩ := List.exists_cons_of_ne_nil nonempty
      have found : set.lookup sid = some (iv :: more) := AList.mem_lookup_iff.mpr member
      have held : set.Denotes sid iv.start := by
        rw [Mysql56GTIDSet.Denotes, found, Option.getD_some]
        exact ⟨iv, List.mem_cons_self, le_refl _, ordered.1 iv List.mem_cons_self⟩
      exact absurd held (nothing sid iv.start)

/-- Subtracting tidy sets one after the other from a tidy set leaves exactly the
GTIDs in none of them. -/
theorem foldlM_difference : ∀ (otherSets : List Mysql56GTIDSet) {set : Mysql56GTIDSet},
    set.Tidy → (∀ other ∈ otherSets, other.Tidy) →
    ∃ result, otherSets.foldlM Mysql56GTIDSet.difference set = .ok result ∧ result.Tidy ∧
      ∀ sid n, result.Denotes sid n ↔ set.Denotes sid n ∧ ∀ other ∈ otherSets, ¬ other.Denotes sid n
  | [], set, tidy, _ => ⟨set, rfl, tidy, by simp⟩
  | other :: rest, set, tidy, othersTidy => by
    obtain ⟨diff, ran⟩ := difference_ok set other
    obtain ⟨diffTidy, diffDenotes⟩ := tidy.difference (othersTidy other List.mem_cons_self) ran
    obtain ⟨result, folded, resultTidy, resultDenotes⟩ := foldlM_difference rest diffTidy
      fun later member => othersTidy later (List.mem_cons_of_mem other member)
    refine ⟨result, by rw [List.foldlM_cons, ran]; exact folded, resultTidy, fun sid n => ?_⟩
    rw [resultDenotes, diffDenotes]
    simp only [List.mem_cons, forall_eq_or_imp]
    tauto

/-- A map through `Option` succeeds on a list where it succeeds on each element,
and collects what it gives for them. -/
theorem mapM_some_of_forall {α β : Type} {f : α → Option β} :
    ∀ {l : List α}, (∀ a ∈ l, (f a).isSome) →
      ∃ r, l.mapM f = some r ∧ ∀ b, b ∈ r ↔ ∃ a ∈ l, f a = some b
  | [], _ => ⟨[], rfl, by simp⟩
  | a :: rest, all => by
    obtain ⟨b, found⟩ := Option.isSome_iff_exists.mp (all a List.mem_cons_self)
    obtain ⟨r, mapped, collected⟩ :=
      mapM_some_of_forall fun later member => all later (List.mem_cons_of_mem a member)
    refine ⟨b :: r, by simp [List.mapM_cons, found, mapped], fun other => ?_⟩
    simp only [List.mem_cons, collected, exists_eq_or_imp, found, Option.some.injEq]
    rw [eq_comm]

/-- Against a nonempty list of MySQL 5.6 replicas, `FindErrantGTIDs` subtracts
their sets in turn from the receiver's set without the source's SID, and reports
an empty result as nil. -/
theorem findErrantGTIDs_of_mysql56 {s : ReplicationStatus} {others : List ReplicationStatus}
    {relayLogSet result : Mysql56GTIDSet} {otherSets : List Mysql56GTIDSet} (nonempty : others ≠ [])
    (relay : s.relayLogPosition.mysql56GTIDSet? = some relayLogSet)
    (collected : others.mapM (·.relayLogPosition.mysql56GTIDSet?) = some otherSets)
    (folded : otherSets.foldlM Mysql56GTIDSet.difference (relayLogSet.erase s.sourceUUID) = .ok result) :
    s.findErrantGTIDs others = .ok (if result.entries.isEmpty then none else some result) := by
  rw [ReplicationStatus.findErrantGTIDs, if_neg (by simpa using nonempty), relay]
  simp only [collected, folded]

/-- On tidy relay-log sets, `FindErrantGTIDs` against a nonempty list of MySQL
5.6 replicas returns exactly the errant GTIDs, and nil exactly when there are
none. -/
theorem findErrantGTIDs_exact {s : ReplicationStatus} {others : List ReplicationStatus}
    {relayLogSet : Mysql56GTIDSet} (relay : s.relayLogPosition.mysql56GTIDSet? = some relayLogSet)
    (tidy : relayLogSet.Tidy)
    (otherRelays : ∀ other ∈ others,
      ∃ set, other.relayLogPosition.mysql56GTIDSet? = some set ∧ set.Tidy)
    (nonempty : others ≠ []) :
    ∃ errant, s.findErrantGTIDs others = .ok errant ∧
      (errant = none ↔ ∀ sid n, ¬ s.ErrantGTID others sid n) ∧
      ∀ found ∈ errant, ∀ sid n, found.Denotes sid n ↔ s.ErrantGTID others sid n := by
  obtain ⟨otherSets, collected, members⟩ :=
    @mapM_some_of_forall _ _ (fun other => other.relayLogPosition.mysql56GTIDSet?) others
      fun other member => by
        obtain ⟨set, found, -⟩ := otherRelays other member
        simp [found]
  -- each collected set is the relay-log set of one of the others, so it is tidy
  have othersTidy : ∀ set ∈ otherSets, set.Tidy := by
    intro set member
    obtain ⟨other, isOther, found⟩ := (members set).mp member
    obtain ⟨otherSet, isFound, otherTidy⟩ := otherRelays other isOther
    rw [isFound, Option.some.injEq] at found
    exact found ▸ otherTidy
  obtain ⟨result, folded, resultTidy, resultDenotes⟩ :=
    foldlM_difference otherSets (tidy.erase s.sourceUUID) othersTidy
  have inNoOther : ∀ sid n, (∀ other ∈ others, ∀ set,
      other.relayLogPosition.mysql56GTIDSet? = some set → ¬ set.Denotes sid n) ↔
      ∀ set ∈ otherSets, ¬ set.Denotes sid n := by
    intro sid n
    constructor
    · intro absent set member
      obtain ⟨other, isOther, found⟩ := (members set).mp member
      exact absent other isOther set found
    · intro absent other isOther set found
      exact absent set ((members set).mpr ⟨other, isOther, found⟩)
  -- the errant GTIDs are those the result denotes
  have errant : ∀ sid n, s.ErrantGTID others sid n ↔ result.Denotes sid n := by
    intro sid n
    rw [resultDenotes, Mysql56GTIDSet.denotes_erase, ReplicationStatus.ErrantGTID, relay,
      inNoOther]
    simp only [Option.some.injEq, exists_eq_left']
    tauto
  refine ⟨_, findErrantGTIDs_of_mysql56 nonempty relay collected folded, ?_,
    fun found member sid n => ?_⟩
  · by_cases empty : result.entries.isEmpty
    · simp only [empty, if_true, true_iff]
      exact fun sid n isErrant => (resultTidy.isEmpty_iff.mp empty) sid n ((errant sid n).mp isErrant)
    · simp only [empty, Bool.false_eq_true, if_false, reduceCtorEq, false_iff, not_forall,
        not_not]
      rw [resultTidy.isEmpty_iff] at empty
      simp only [not_forall, not_not] at empty
      obtain ⟨sid, n, denoted⟩ := empty
      exact ⟨sid, n, (errant sid n).mpr denoted⟩
  · by_cases empty : result.entries.isEmpty
    · simp [empty] at member
    · simp only [empty, Bool.false_eq_true, if_false, Option.mem_def, Option.some.injEq] at member
      subst member
      exact (errant sid n).symm

end Vitess.Replication
