import Vitess.Replication.Position
import Mathlib.Data.List.Lex
import Mathlib.Data.Char
import Mathlib.Data.Prod.Lex

/-!
# How far MariaDB and file-position GTID sets reach

`ContainsGTID`, `Contains`, `AddGTID` and `Union` of `mariadb_gtid.go` and
`filepos_gtid.go`. A MariaDB set keeps one GTID per replication domain, the
latest one applied there: it stands for every sequence number up to that one in
the domain (`MariadbGTIDSet.Applied`). A file position stands for every binlog
place up to it, in the order of file name and then position
(`FilePosGTID.place`). Over these meanings `Contains` is inclusion and `Union`
is union: for MariaDB sets keyed by their GTIDs' domains, as the parser stores
them, and for any file positions.

`AddGTID` copies the map and then runs `addGTID` on the copy; the model has no
sharing, so both are `MariadbGTIDSet.addGTID`. `Union` runs `addGTID` for the
GTIDs of the other set in the order the Go map yields them, which is one order
of `entries`; the GTIDs that `Union` holds do not depend on it
(`applied_foldl_addGTID`). Go compares file names byte by byte; on the UTF-8
text of `List Char` that is the order of the characters.
-/

namespace Vitess.Replication

/-! ### MariaDB -/

/-- `MariadbGTIDSet.ContainsGTID` of a MariaDB GTID: the set holds a GTID of its
domain with a sequence number at least as high. -/
def MariadbGTIDSet.containsGTID (gtidSet : MariadbGTIDSet) (other : MariadbGTID) : Bool :=
  match gtidSet.lookup other.domain with
  | none => false
  | some gtid => other.sequence ≤ gtid.sequence

/-- `MariadbGTIDSet.Contains` of a MariaDB set: every GTID of the other set. -/
def MariadbGTIDSet.contains (gtidSet other : MariadbGTIDSet) : Bool :=
  other.entries.all fun entry => gtidSet.containsGTID entry.2

/-- `MariadbGTIDSet.addGTID`: the GTID is stored under its domain when the set
has none there or one with a lower sequence number. -/
def MariadbGTIDSet.addGTID (gtidSet : MariadbGTIDSet) (otherGTID : MariadbGTID) :
    MariadbGTIDSet :=
  match gtidSet.lookup otherGTID.domain with
  | none => gtidSet.insert otherGTID.domain otherGTID
  | some gtid =>
    if otherGTID.sequence > gtid.sequence then gtidSet.insert otherGTID.domain otherGTID
    else gtidSet

/-- `MariadbGTIDSet.Union` of two MariaDB sets: `addGTID` of each GTID of the
other set into a copy of ours. -/
def MariadbGTIDSet.union (gtidSet other : MariadbGTIDSet) : MariadbGTIDSet :=
  other.entries.foldl (fun newSet entry => newSet.addGTID entry.2) gtidSet

/-- The transactions a MariaDB set has applied: in each domain, every sequence
number up to that of the set's GTID there. -/
def MariadbGTIDSet.Applied (gtidSet : MariadbGTIDSet) (domain : UInt32) (sequence : UInt64) :
    Prop :=
  ∃ gtid, gtidSet.lookup domain = some gtid ∧ sequence ≤ gtid.sequence

namespace MariadbGTIDSet

variable {gtidSet other : MariadbGTIDSet}

theorem KeyedByDomain.lookup (keyed : gtidSet.KeyedByDomain) {domain : UInt32}
    {gtid : MariadbGTID} (found : gtidSet.lookup domain = some gtid) : gtid.domain = domain :=
  keyed ⟨domain, gtid⟩ (AList.mem_lookup_iff.mp found)

theorem keyedByDomain_of_lookup
    (each : ∀ domain gtid, gtidSet.lookup domain = some gtid → gtid.domain = domain) :
    gtidSet.KeyedByDomain :=
  fun entry member => each entry.1 entry.2 (AList.mem_lookup_iff.mpr member)

theorem containsGTID_iff {gtid : MariadbGTID} :
    gtidSet.containsGTID gtid = true ↔ gtidSet.Applied gtid.domain gtid.sequence := by
  unfold containsGTID Applied
  cases gtidSet.lookup gtid.domain <;> simp

/-- `Contains` of a set keyed by domain is inclusion of the applied transactions:
each GTID of the other set stands for the sequence numbers below it. -/
theorem contains_iff_applied (keyed : other.KeyedByDomain) :
    gtidSet.contains other = true ↔
      ∀ domain sequence, other.Applied domain sequence → gtidSet.Applied domain sequence := by
  rw [contains, List.all_eq_true]
  constructor
  · rintro each domain sequence ⟨gtid, found, below⟩
    obtain ⟨ours, ourFound, above⟩ := containsGTID_iff.mp (each _ (AList.mem_lookup_iff.mp found))
    rw [keyed.lookup found] at ourFound
    exact ⟨ours, ourFound, UInt64.le_trans below above⟩
  · intro within entry member
    rw [containsGTID_iff, keyed entry member]
    exact within entry.1 entry.2.sequence
      ⟨entry.2, AList.mem_lookup_iff.mpr member, UInt64.le_refl _⟩

/-- `addGTID` adds the sequence numbers up to the GTID's in its domain: the
sequence number the domain ends with is the larger of the two. -/
theorem applied_addGTID (gtidSet : MariadbGTIDSet) (otherGTID : MariadbGTID) (domain : UInt32)
    (sequence : UInt64) :
    (gtidSet.addGTID otherGTID).Applied domain sequence ↔
      gtidSet.Applied domain sequence ∨
        (domain = otherGTID.domain ∧ sequence ≤ otherGTID.sequence) := by
  by_cases same : domain = otherGTID.domain
  · subst same
    unfold addGTID Applied
    cases found : gtidSet.lookup otherGTID.domain with
    | none => simp
    | some gtid =>
      simp only [Option.some.injEq, exists_eq_left', true_and]
      split_ifs with newer
      · simp only [AList.lookup_insert, Option.some.injEq, exists_eq_left']
        rw [gt_iff_lt, UInt64.lt_iff_toNat_lt] at newer
        simp only [UInt64.le_iff_toNat_le]
        omega
      · rw [found]
        simp only [Option.some.injEq, exists_eq_left']
        rw [gt_iff_lt, UInt64.lt_iff_toNat_lt] at newer
        simp only [UInt64.le_iff_toNat_le]
        omega
  · have kept : (gtidSet.addGTID otherGTID).lookup domain = gtidSet.lookup domain := by
      unfold addGTID
      split
      · exact AList.lookup_insert_ne same
      · split_ifs
        · exact AList.lookup_insert_ne same
        · rfl
    simp [Applied, kept, same]

/-- `addGTID` stores the GTID under its own domain. -/
theorem keyedByDomain_addGTID (keyed : gtidSet.KeyedByDomain) (otherGTID : MariadbGTID) :
    (gtidSet.addGTID otherGTID).KeyedByDomain := by
  have inserted : KeyedByDomain (gtidSet.insert otherGTID.domain otherGTID) := by
    apply keyedByDomain_of_lookup
    intro domain gtid found
    by_cases same : domain = otherGTID.domain
    · subst same
      rw [AList.lookup_insert, Option.some.injEq] at found
      rw [← found]
    · rw [AList.lookup_insert_ne same] at found
      exact keyed.lookup found
  unfold addGTID
  split
  · exact inserted
  · split_ifs
    · exact inserted
    · exact keyed

/-- The loop of `Union`, in any order of the other set's GTIDs: each GTID adds
the sequence numbers up to it in its domain. -/
theorem applied_foldl_addGTID (domain : UInt32) (sequence : UInt64) :
    ∀ (entries : List (Σ _ : UInt32, MariadbGTID)) (gtidSet : MariadbGTIDSet),
      (entries.foldl (fun newSet entry => newSet.addGTID entry.2) gtidSet).Applied domain sequence ↔
        gtidSet.Applied domain sequence ∨
          ∃ entry ∈ entries, entry.2.domain = domain ∧ sequence ≤ entry.2.sequence
  | [], gtidSet => by simp
  | entry :: entries, gtidSet => by
    rw [List.foldl_cons, applied_foldl_addGTID domain sequence entries, applied_addGTID]
    simp only [List.mem_cons, exists_eq_or_imp, eq_comm (a := domain)]
    tauto

/-- The GTIDs of a set keyed by domain are the GTIDs of its entries. -/
theorem applied_iff_entries (keyed : other.KeyedByDomain) (domain : UInt32) (sequence : UInt64) :
    other.Applied domain sequence ↔
      ∃ entry ∈ other.entries, entry.2.domain = domain ∧ sequence ≤ entry.2.sequence := by
  constructor
  · rintro ⟨gtid, found, below⟩
    exact ⟨⟨domain, gtid⟩, AList.mem_lookup_iff.mp found, keyed.lookup found, below⟩
  · rintro ⟨entry, member, sameDomain, below⟩
    refine ⟨entry.2, ?_, below⟩
    rw [← sameDomain, keyed entry member]
    exact AList.mem_lookup_iff.mpr member

/-- `Union` with a set keyed by domain has applied exactly what either set has. -/
theorem applied_union (keyed : other.KeyedByDomain) (domain : UInt32) (sequence : UInt64) :
    (gtidSet.union other).Applied domain sequence ↔
      gtidSet.Applied domain sequence ∨ other.Applied domain sequence := by
  rw [union, applied_foldl_addGTID, applied_iff_entries keyed]

theorem keyedByDomain_union (keyed : gtidSet.KeyedByDomain) (other : MariadbGTIDSet) :
    (gtidSet.union other).KeyedByDomain := by
  unfold union
  induction other.entries generalizing gtidSet with
  | nil => exact keyed
  | cons entry entries inductionHypothesis =>
    exact inductionHypothesis (keyedByDomain_addGTID keyed entry.2)

end MariadbGTIDSet

/-! ### File positions -/

/-- `FilePosGTID.ContainsGTID` of a file position: it lies in an earlier file,
or in ours and not past our position. -/
def FilePosGTID.containsGTID (gtid other : FilePosGTID) : Bool :=
  if other.file < gtid.file then true
  else if other.file > gtid.file then false
  else other.pos ≤ gtid.pos

/-- `FilePosGTID.Contains` of a file position. -/
def FilePosGTID.contains (gtid other : FilePosGTID) : Bool :=
  gtid.containsGTID other

/-- `FilePosGTID.Union` with a file position: ours when it contains the other,
else the other. -/
def FilePosGTID.union (gtid other : FilePosGTID) : FilePosGTID :=
  if gtid.contains other then gtid else other

/-- Where a file position lies in the binlog stream: the file name first, then
the position in the file. -/
def FilePosGTID.place (gtid : FilePosGTID) : List Char ×ₗ ℕ :=
  toLex (gtid.file, gtid.pos.toNat)

namespace FilePosGTID

theorem containsGTID_iff {gtid other : FilePosGTID} :
    gtid.containsGTID other = true ↔ other.place ≤ gtid.place := by
  rw [place, place, Prod.Lex.toLex_le_toLex]
  unfold containsGTID
  split_ifs with before after
  · simp [before]
  · simp only [false_iff, not_or, not_and]
    exact ⟨lt_asymm after, fun same => absurd after (same ▸ lt_irrefl _)⟩
  · have same : other.file = gtid.file := le_antisymm (not_lt.mp after) (not_lt.mp before)
    simp [same, UInt32.le_iff_toNat_le]

theorem contains_iff {gtid other : FilePosGTID} :
    gtid.contains other = true ↔ other.place ≤ gtid.place :=
  containsGTID_iff

/-- `Contains` is inclusion of the places each position has reached. -/
theorem contains_iff_applied {gtid other : FilePosGTID} :
    gtid.contains other = true ↔ ∀ position : FilePosGTID,
      position.place ≤ other.place → position.place ≤ gtid.place := by
  rw [contains_iff]
  exact ⟨fun below position reached => le_trans reached below, fun within => within other le_rfl⟩

/-- `Union` reaches the later of the two places. -/
theorem place_union (gtid other : FilePosGTID) :
    (gtid.union other).place = max gtid.place other.place := by
  unfold union
  split_ifs with contained
  · rw [max_eq_left (contains_iff.mp contained)]
  · rw [Bool.not_eq_true, ← Bool.not_eq_true, contains_iff, not_le] at contained
    rw [max_eq_right contained.le]

end FilePosGTID

end Vitess.Replication
