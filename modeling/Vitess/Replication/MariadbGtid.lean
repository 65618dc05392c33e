import Vitess.Go.Strconv
import Vitess.Data.KeyedFold
import Mathlib.Data.List.Sort

/-!
# MariaDB GTID sets

`go/mysql/replication/mariadb_gtid.go`: a MariaDB GTID set holds one GTID per
replication domain, keyed by the domain. `String` writes the GTIDs as
`domain-server-sequence`, by increasing domain, separated by commas;
`ParseMariadbGTIDSet` splits at the commas and the dashes, reads the three
numbers and stores each GTID under its own domain.

A set whose keys are their GTIDs' domains is read back from its text as a set
`Equal` to it (`parseMariadbGTIDSet_string`).
-/

namespace Vitess.Replication

open Vitess.Go

/-- `MariadbGTID`. -/
structure MariadbGTID where
  domain : UInt32
  server : UInt32
  sequence : UInt64
  deriving DecidableEq, Repr, Inhabited

/-- `MariadbGTIDSet`: a Go map from domain to GTID. -/
abbrev MariadbGTIDSet := AList fun _ : UInt32 => MariadbGTID

/-- The errors of the MariaDB parsers, with the text their messages quote. -/
inductive MariadbParseError where
  /-- `invalid MariaDB GTID (%v): expecting Domain-Server-Sequence`. -/
  | expectingDomainServerSequence (s : List Char)
  /-- `invalid MariaDB GTID Domain ID (%v)` wrapping a `strconv` error. -/
  | invalidDomainID (part : List Char) (err : NumError)
  /-- `invalid MariaDB GTID Server ID (%v)` wrapping a `strconv` error. -/
  | invalidServerID (part : List Char) (err : NumError)
  /-- `invalid MariaDB GTID Sequence number (%v)` wrapping a `strconv` error. -/
  | invalidSequenceNumber (part : List Char) (err : NumError)
  deriving DecidableEq, Repr

/-- `parseMariadbGTID`: `strings.Split` at dashes must give three parts, read as
`uint32`, `uint32` and `uint64`. -/
def parseMariadbGTID (s : List Char) : Except MariadbParseError MariadbGTID :=
  match s.splitOn '-' with
  | [part0, part1, part2] =>
    match parseUint part0 32 with
    | .error err => .error (.invalidDomainID part0 err)
    | .ok domain =>
      match parseUint part1 32 with
      | .error err => .error (.invalidServerID part1 err)
      | .ok server =>
        match parseUint part2 64 with
        | .error err => .error (.invalidSequenceNumber part2 err)
        | .ok sequence => .ok ⟨domain.toUInt32, server.toUInt32, sequence.toUInt64⟩
  | _ => .error (.expectingDomainServerSequence s)

/-- The loop body of `ParseMariadbGTIDSet`: a trimmed piece that is not empty is
read as a GTID and stored under its domain. -/
def addMariadbGTID (gtidSet : MariadbGTIDSet) (gtidString : List Char) :
    Except MariadbParseError MariadbGTIDSet :=
  let gtidString := trimSpace gtidString
  if gtidString.isEmpty then .ok gtidSet
  else (fun gtid => gtidSet.insert gtid.domain gtid) <$> parseMariadbGTID gtidString

/-- `ParseMariadbGTIDSet`: the comma-separated pieces, from an empty set. -/
def parseMariadbGTIDSet (s : List Char) : Except MariadbParseError MariadbGTIDSet :=
  (s.splitOn ',').foldlM addMariadbGTID ∅

/-- `MariadbGTID.String`: `%d-%d-%d`. -/
def MariadbGTID.string (gtid : MariadbGTID) : List Char :=
  formatUint gtid.domain.toNat ++ '-' :: formatUint gtid.server.toNat ++ '-' ::
    formatUint gtid.sequence.toNat

/-- `MariadbGTIDSet.String`: the GTIDs by increasing domain, separated by commas. -/
def MariadbGTIDSet.string (set : MariadbGTIDSet) : List Char :=
  [','].intercalate ((set.keys.mergeSort fun a b => decide (a ≤ b)).map fun domain =>
    ((set.lookup domain).getD default).string)

/-- `MariadbGTIDSet.Equal`: as many domains, and ours each with the same GTID in
the other set. -/
def MariadbGTIDSet.equal (set other : MariadbGTIDSet) : Bool :=
  set.entries.length == other.entries.length &&
    set.entries.all fun entry => other.lookup entry.1 == some entry.2

/-- Each GTID stored under its own domain, as the parser stores them. -/
def MariadbGTIDSet.KeyedByDomain (set : MariadbGTIDSet) : Prop :=
  ∀ entry ∈ set.entries, entry.2.domain = entry.1

instance (set : MariadbGTIDSet) : Decidable set.KeyedByDomain :=
  inferInstanceAs (Decidable (∀ entry ∈ set.entries, _))

/-- Two sets with the same GTID at every domain are `Equal`. -/
theorem MariadbGTIDSet.equal_of_lookup {set other : MariadbGTIDSet}
    (same : ∀ domain, set.lookup domain = other.lookup domain) : set.equal other = true := by
  have perm : set.entries.Perm other.entries :=
    List.lookup_ext set.nodupKeys other.nodupKeys fun domain gtid => by
      change gtid ∈ set.lookup domain ↔ gtid ∈ other.lookup domain
      rw [same domain]
  simp only [MariadbGTIDSet.equal, perm.length_eq, beq_self_eq_true, Bool.true_and,
    List.all_eq_true, beq_iff_eq]
  intro entry member
  rw [← same entry.1, AList.mem_lookup_iff.mpr member]

/-! ### Reading the text back -/

theorem mem_string_ne_separators {gtid : MariadbGTID} {c : Char} (member : c ∈ gtid.string) :
    c ≠ ',' ∧ isSpace c = false := by
  simp only [MariadbGTID.string, List.mem_append, List.mem_cons] at member
  rcases member with ((inDomain | dash | inServer) | dash | inSequence)
  all_goals first
    | (subst ‹c = '-'›; decide)
    | exact ⟨(separators_of_isDigit (isDigit_of_mem_formatUint ‹_›)).1,
        (separators_of_isDigit (isDigit_of_mem_formatUint ‹_›)).2.2.2.2⟩

/-- `parseMariadbGTID` reads back what `String` writes. -/
theorem parseMariadbGTID_string (gtid : MariadbGTID) : parseMariadbGTID gtid.string = .ok gtid := by
  obtain ⟨domain, server, sequence⟩ := gtid
  have parts : (MariadbGTID.string ⟨domain, server, sequence⟩).splitOn '-' =
      [formatUint domain.toNat, formatUint server.toNat, formatUint sequence.toNat] := by
    have split : ([ '-' ].intercalate [formatUint domain.toNat, formatUint server.toNat,
        formatUint sequence.toNat]).splitOn '-' =
        [formatUint domain.toNat, formatUint server.toNat, formatUint sequence.toNat] :=
      List.splitOn_intercalate '-' (by
        simp only [List.mem_cons, List.not_mem_nil, or_false]
        rintro part (rfl | rfl | rfl) <;>
          exact fun dash => (separators_of_isDigit (isDigit_of_mem_formatUint dash)).2.2.1 rfl)
      (List.cons_ne_nil _ _)
    simpa [List.intercalate_cons_cons, MariadbGTID.string] using split
  rw [parseMariadbGTID, parts]
  simp [parseUint_formatUint (by decide : 32 ≤ 64) domain.toNat_lt,
    parseUint_formatUint (by decide : 32 ≤ 64) server.toNat_lt,
    parseUint_formatUint (le_refl 64) sequence.toNat_lt]

/-- `ParseMariadbGTIDSet` reads back what `String` writes, for a set whose keys
are their GTIDs' domains. -/
theorem parseMariadbGTIDSet_string {set : MariadbGTIDSet} (keyed : set.KeyedByDomain) :
    ∃ parsed, parseMariadbGTIDSet set.string = .ok parsed ∧
      ∀ domain, parsed.lookup domain = set.lookup domain := by
  set domains := set.keys.mergeSort fun a b => decide (a ≤ b) with domainsDef
  have domainsPerm : domains.Perm set.keys := List.mergeSort_perm _ _
  have present : ∀ domain ∈ domains, ∃ gtid, set.lookup domain = some gtid := fun domain member =>
    Option.isSome_iff_exists.mp (AList.lookup_isSome.mpr (domainsPerm.subset member))
  have clean : ∀ text ∈ domains.map (fun domain => ((set.lookup domain).getD default).string),
      ',' ∉ text := by
    intro text member comma
    obtain ⟨domain, -, rfl⟩ := List.mem_map.mp member
    exact (mem_string_ne_separators comma).1 rfl
  -- each GTID's text inserts the GTID under its domain
  have inserts : ∀ domain ∈ domains, ∀ acc : MariadbGTIDSet, acc.lookup domain = none →
      addMariadbGTID acc ((set.lookup domain).getD default).string =
        .ok (acc.insert domain ((set.lookup domain).getD default)) := by
    intro domain member acc _
    obtain ⟨gtid, found⟩ := present domain member
    have ownDomain : gtid.domain = domain := keyed ⟨domain, gtid⟩ (AList.mem_lookup_iff.mp found)
    have noSpace : ∀ c ∈ gtid.string, isSpace c = false := fun c member =>
      (mem_string_ne_separators member).2
    have notEmpty : gtid.string.isEmpty = false := by simp [MariadbGTID.string]
    simp only [addMariadbGTID, found, Option.getD_some, trimSpace_of_forall noSpace, notEmpty,
      Bool.false_eq_true, if_false, parseMariadbGTID_string]
    rw [← ownDomain]
    rfl
  by_cases empty : domains = []
  · -- no GTID: the text is empty, and its one piece is skipped
    refine ⟨∅, ?_, fun domain => ?_⟩
    · simp only [MariadbGTIDSet.string, ← domainsDef, empty, List.map_nil, List.intercalate_nil]
      rfl
    · rw [AList.lookup_empty, eq_comm, AList.lookup_eq_none]
      intro isKey
      simpa [empty] using domainsPerm.symm.subset isKey
  · rw [MariadbGTIDSet.string, ← domainsDef, parseMariadbGTIDSet,
      List.splitOn_intercalate ',' clean (by simpa using empty), List.foldlM_map]
    refine KeyedFold.foldlM_rebuild set domainsPerm _ (fun domain => (set.lookup domain).getD default)
      (fun domain member => ?_) inserts
    obtain ⟨gtid, found⟩ := present domain member
    rw [found, Option.getD_some]

end Vitess.Replication
