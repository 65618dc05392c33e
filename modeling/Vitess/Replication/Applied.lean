import Vitess.Replication.Mysql56Compare
import Vitess.Replication.GtidOrder

/-!
# What a replication position has applied

`AtLeast` and `AppendGTID` of `replication_position.go`, over the `GTID` and
`GTIDSet` interfaces of `gtid.go` and `gtid_set.go` and their three
implementations. A GTID set stands for the transactions it has applied
(`GTIDSet.Applied`): the GTIDs of a MySQL 5.6 set, every sequence number up to
the stored one in each domain of a MariaDB set, every binlog place up to a file
position. Over that meaning:

* `Contains` of two well-formed sets is inclusion, for sets of one flavor, and
  `ContainsGTID` agrees with `Contains` of the GTID's own set
  (`GTIDSet.contains_iff_applied`, `GTIDSet.containsGTID_iff_contains`);
* `Union` of two sets of one flavor has applied what either has, so it is their
  least upper bound for `Contains` (`union_least_upper_bound`);
* `AtLeast` is inclusion of what the positions have applied, so it is a preorder
  (`atLeast_is_inclusion`);
* a run of `AppendGTID` over GTIDs of the two flavors that gather GTIDs never
  moves the position back (`appendGTIDs_moves_forward`). A file position is
  replaced by each file position appended, and may move back.

Each implementation asserts the concrete type of the other set or GTID first and
answers `false`, or returns the receiver, on another flavor; the interfaces are
inductive types here and those answers are the fall-through cases. A set in the
model is never a nil map: `Union` of a nil MySQL 5.6 or MariaDB map returns the
other set whatever its flavor, which the model does not represent.
-/

namespace Vitess.Replication

/-! ### The interfaces -/

/-- The implementations of the `GTID` interface. -/
inductive GTID where
  | mysql56 (gtid : Mysql56GTID)
  | mariadb (gtid : MariadbGTID)
  | filePos (gtid : FilePosGTID)

/-- `GTID.Flavor`. -/
def GTID.flavor : GTID → List Char
  | .mysql56 _ => mysql56FlavorID
  | .mariadb _ => mariadbFlavorID
  | .filePos _ => filePosFlavorID

/-- `GTID.GTIDSet`: the set of the one GTID; for MySQL 5.6, `AddGTID` of it to an
empty set. -/
def GTID.gtidSet : GTID → GTIDSet
  | .mysql56 gtid => .mysql56 ((∅ : Mysql56GTIDSet).addGTID gtid)
  | .mariadb gtid => .mariadb ((∅ : MariadbGTIDSet).insert gtid.domain gtid)
  | .filePos gtid => .filePos gtid

/-- `GTIDSet.ContainsGTID`: a nil GTID is in every MariaDB set and every file
position, and in no MySQL 5.6 set. -/
def GTIDSet.containsGTID : GTIDSet → Option GTID → Bool
  | .mysql56 set, some (.mysql56 gtid) => set.containsGTID gtid
  | .mariadb _, none => true
  | .mariadb set, some (.mariadb gtid) => set.containsGTID gtid
  | .filePos _, none => true
  | .filePos gtid, some (.filePos other) => gtid.containsGTID other
  | _, _ => false

/-- `GTIDSet.Contains`: nil, or a set of another flavor, is never contained. -/
def GTIDSet.contains : GTIDSet → Option GTIDSet → Bool
  | .mysql56 set, some (.mysql56 other) => set.contains other
  | .mariadb set, some (.mariadb other) => set.contains other
  | .filePos gtid, some (.filePos other) => gtid.contains other
  | _, _ => false

/-- `GTIDSet.AddGTID` of a GTID: one of another flavor leaves the set as it is,
and a file position replaces the one there. -/
def GTIDSet.addGTID : GTIDSet → GTID → GTIDSet
  | .mysql56 set, .mysql56 gtid => .mysql56 (set.addGTID gtid)
  | .mariadb set, .mariadb gtid => .mariadb (set.addGTID gtid)
  | .filePos _, .filePos other => .filePos other
  | gtidSet, _ => gtidSet

/-- `GTIDSet.Union`: nil, or a set of another flavor, leaves the set as it is. -/
def GTIDSet.union : GTIDSet → Option GTIDSet → GTIDSet
  | .mysql56 set, some (.mysql56 other) => .mysql56 (set.union other)
  | .mariadb set, some (.mariadb other) => .mariadb (set.union other)
  | .filePos gtid, some (.filePos other) => .filePos (gtid.union other)
  | gtidSet, _ => gtidSet

/-- `Position.AtLeast`: every position is at least the zero position, and the
zero position is at least no other. -/
def Position.atLeast (rp other : Position) : Bool :=
  match other.gtidSet with
  | none => true
  | some _ =>
    match rp.gtidSet with
    | none => false
    | some gtidSet => gtidSet.contains other.gtidSet

/-- `AppendGTID`: a nil GTID leaves the position as it is, and the zero position
becomes the GTID's own set. -/
def appendGTID (rp : Position) : Option GTID → Position
  | none => rp
  | some gtid =>
    match rp.gtidSet with
    | none => ⟨some gtid.gtidSet⟩
    | some gtidSet => ⟨some (gtidSet.addGTID gtid)⟩

/-- `AppendGTID` of each GTID of a replication stream in turn. -/
def appendGTIDs (rp : Position) (gtids : List (Option GTID)) : Position :=
  gtids.foldl appendGTID rp

/-! ### What the sets stand for -/

/-- A transaction, as each flavor names it. -/
inductive Transaction where
  | mysql56 (server : SID) (sequence : ℤ)
  | mariadb (domain : UInt32) (sequence : UInt64)
  | filePos (position : FilePosGTID)

/-- The transactions a GTID set has applied. -/
def GTIDSet.Applied : GTIDSet → Transaction → Prop
  | .mysql56 set, .mysql56 server sequence => set.Denotes server sequence
  | .mariadb set, .mariadb domain sequence => set.Applied domain sequence
  | .filePos gtid, .filePos position => position.place ≤ gtid.place
  | _, _ => False

/-- The transactions a position has applied: none for the zero position. -/
def Position.Applied (rp : Position) (transaction : Transaction) : Prop :=
  ∃ gtidSet ∈ rp.gtidSet, gtidSet.Applied transaction

/-- What the comparisons need of a set: canonical MySQL 5.6 lists, MariaDB GTIDs
stored under their own domains. -/
def GTIDSet.WellFormed : GTIDSet → Prop
  | .mysql56 set => set.Canonical
  | .mariadb set => set.KeyedByDomain
  | .filePos _ => True

instance : DecidablePred GTIDSet.WellFormed
  | .mysql56 set => inferInstanceAs (Decidable set.Canonical)
  | .mariadb set => inferInstanceAs (Decidable set.KeyedByDomain)
  | .filePos _ => inferInstanceAs (Decidable True)

/-- A position whose set, if any, is well formed. -/
def Position.WellFormed (rp : Position) : Prop :=
  ∀ gtidSet ∈ rp.gtidSet, gtidSet.WellFormed

instance (rp : Position) : Decidable rp.WellFormed :=
  inferInstanceAs (Decidable (∀ gtidSet ∈ rp.gtidSet, gtidSet.WellFormed))

/-- A GTID as MySQL issues it: sequence numbers start at 1. -/
def GTID.Valid : GTID → Prop
  | .mysql56 gtid => 1 ≤ gtid.sequence
  | .mariadb _ => True
  | .filePos _ => True

instance : DecidablePred GTID.Valid
  | .mysql56 gtid => inferInstanceAs (Decidable (1 ≤ gtid.sequence))
  | .mariadb _ => inferInstanceAs (Decidable True)
  | .filePos _ => inferInstanceAs (Decidable True)

/-! ### Sets of one flavor -/

namespace GTIDSet

theorem mysql56_canonical_empty : (∅ : Mysql56GTIDSet).Canonical := by
  intro entry member
  cases member

theorem mariadb_applied_single (gtid : MariadbGTID) (domain : UInt32) (sequence : UInt64) :
    MariadbGTIDSet.Applied ((∅ : MariadbGTIDSet).insert gtid.domain gtid) domain sequence ↔
      domain = gtid.domain ∧ sequence ≤ gtid.sequence := by
  unfold MariadbGTIDSet.Applied
  by_cases same : domain = gtid.domain
  · subst same
    rw [AList.lookup_insert]
    simp
  · rw [AList.lookup_insert_ne same, AList.lookup_empty]
    simp [same]

@[simp] theorem flavor_gtidSet (gtid : GTID) : gtid.gtidSet.flavor = gtid.flavor := by
  cases gtid <;> rfl

@[simp] theorem flavor_addGTID (gtidSet : GTIDSet) (gtid : GTID) :
    (gtidSet.addGTID gtid).flavor = gtidSet.flavor := by
  cases gtidSet <;> cases gtid <;> rfl

theorem wellFormed_gtidSet {gtid : GTID} (valid : gtid.Valid) : gtid.gtidSet.WellFormed := by
  cases gtid with
  | mysql56 gtid => exact Mysql56GTIDSet.canonical_addGTID mysql56_canonical_empty valid
  | mariadb gtid =>
    apply MariadbGTIDSet.keyedByDomain_of_lookup
    intro domain stored found
    by_cases same : domain = gtid.domain
    · subst same
      rw [AList.lookup_insert, Option.some.injEq] at found
      rw [← found]
    · rw [AList.lookup_insert_ne same, AList.lookup_empty] at found
      cases found
  | filePos gtid => trivial

theorem wellFormed_addGTID {gtidSet : GTIDSet} (wf : gtidSet.WellFormed) {gtid : GTID}
    (valid : gtid.Valid) : (gtidSet.addGTID gtid).WellFormed := by
  cases gtidSet <;> cases gtid
  case mysql56.mysql56 set gtid => exact Mysql56GTIDSet.canonical_addGTID wf valid
  case mariadb.mariadb set gtid => exact MariadbGTIDSet.keyedByDomain_addGTID wf gtid
  all_goals exact wf

/-- A set of another flavor than ours is never contained in it. -/
theorem contains_of_flavor_ne {gtidSet other : GTIDSet} (differ : gtidSet.flavor ≠ other.flavor) :
    gtidSet.contains (some other) = false := by
  cases gtidSet <;> cases other <;> first | rfl | exact absurd rfl differ

/-- `Contains` of two well-formed sets is inclusion of what they have applied,
for sets of one flavor. -/
theorem contains_iff_applied {gtidSet other : GTIDSet} (wf : gtidSet.WellFormed)
    (otherWf : other.WellFormed) :
    gtidSet.contains (some other) = true ↔
      gtidSet.flavor = other.flavor ∧ ∀ t, other.Applied t → gtidSet.Applied t := by
  by_cases same : gtidSet.flavor = other.flavor
  swap
  · simp [contains_of_flavor_ne same, same]
  simp only [same, true_and]
  cases gtidSet <;> cases other
  case mysql56.mysql56 set other =>
    rw [contains, contains_iff_denotes wf otherWf]
    constructor
    · rintro within (⟨sid, n⟩ | _ | _) inside
      · exact within sid n inside
      all_goals exact inside.elim
    · exact fun within sid n => within (.mysql56 sid n)
  case mariadb.mariadb set other =>
    rw [contains, MariadbGTIDSet.contains_iff_applied otherWf]
    constructor
    · rintro within (_ | ⟨domain, sequence⟩ | _) inside
      · exact inside.elim
      · exact within domain sequence inside
      · exact inside.elim
    · exact fun within domain sequence => within (.mariadb domain sequence)
  case filePos.filePos gtid other =>
    rw [contains, FilePosGTID.contains_iff_applied]
    constructor
    · rintro within (_ | _ | position) inside
      · exact inside.elim
      · exact inside.elim
      · exact within position inside
    · exact fun within position => within (.filePos position)
  all_goals
    simp only [flavor] at same
    exact absurd same (by decide)

/-- `ContainsGTID` agrees with `Contains` of the GTID's own set. -/
theorem containsGTID_iff_contains {gtidSet : GTIDSet} (wf : gtidSet.WellFormed) {gtid : GTID}
    (valid : gtid.Valid) :
    gtidSet.containsGTID (some gtid) = gtidSet.contains (some gtid.gtidSet) := by
  cases gtidSet <;> cases gtid
  case mysql56.mysql56 set gtid =>
    have single := Mysql56GTIDSet.canonical_addGTID mysql56_canonical_empty
      (show 1 ≤ gtid.sequence from valid)
    rw [Bool.eq_iff_iff, containsGTID, GTID.gtidSet, contains, contains_iff_denotes wf single,
      Mysql56GTIDSet.containsGTID, containsSequence_iff (wf.getD gtid.server).1]
    constructor
    · intro inside sid n point
      rcases (Mysql56GTIDSet.denotes_addGTID mysql56_canonical_empty gtid sid n).mp point with
        empty | ⟨rfl, rfl⟩
      · exact absurd empty (Mysql56GTIDSet.not_denotes_of_lookup (AList.lookup_empty _) n)
      · exact inside
    · intro within
      exact within gtid.server gtid.sequence
        ((Mysql56GTIDSet.denotes_addGTID mysql56_canonical_empty gtid _ _).mpr (.inr ⟨rfl, rfl⟩))
  case mariadb.mariadb set gtid =>
    rw [Bool.eq_iff_iff, containsGTID, GTID.gtidSet, contains,
      MariadbGTIDSet.contains_iff_applied
        (wellFormed_gtidSet (show (GTID.mariadb gtid).Valid from trivial)),
      MariadbGTIDSet.containsGTID_iff]
    constructor
    · rintro ⟨stored, found, above⟩ domain sequence point
      obtain ⟨rfl, below⟩ := (mariadb_applied_single gtid domain sequence).mp point
      exact ⟨stored, found, UInt64.le_trans below above⟩
    · intro within
      exact within gtid.domain gtid.sequence
        ((mariadb_applied_single gtid _ _).mpr ⟨rfl, UInt64.le_refl _⟩)
  case filePos.filePos gtid other => rfl
  all_goals rfl

/-! ### `AddGTID` and `Union` -/

/-- `AddGTID` of a GTID of the set's flavor adds what the GTID's own set has
applied, for the flavors that gather GTIDs; one of another flavor adds nothing. -/
theorem applied_addGTID {gtidSet : GTIDSet} (wf : gtidSet.WellFormed)
    (gathers : gtidSet.flavor ≠ filePosFlavorID) (gtid : GTID) (t : Transaction) :
    (gtidSet.addGTID gtid).Applied t ↔
      gtidSet.Applied t ∨ (gtidSet.flavor = gtid.flavor ∧ gtid.gtidSet.Applied t) := by
  cases gtidSet <;> cases gtid
  case mysql56.mysql56 set gtid =>
    cases t with
    | mysql56 sid n =>
      simp [addGTID, GTID.gtidSet, Applied, flavor, GTID.flavor, Mysql56GTIDSet.denotes_addGTID wf,
        Mysql56GTIDSet.denotes_addGTID mysql56_canonical_empty,
        Mysql56GTIDSet.not_denotes_of_lookup (AList.lookup_empty _)]
    | mariadb => simp [addGTID, Applied, GTID.gtidSet]
    | filePos => simp [addGTID, Applied, GTID.gtidSet]
  case mariadb.mariadb set gtid =>
    cases t with
    | mariadb domain sequence =>
      simp only [addGTID, GTID.gtidSet, Applied, MariadbGTIDSet.applied_addGTID,
        mariadb_applied_single]
      simp [flavor, GTID.flavor]
    | mysql56 => simp [addGTID, Applied, GTID.gtidSet]
    | filePos => simp [addGTID, Applied, GTID.gtidSet]
  case filePos.filePos => exact absurd rfl gathers
  case filePos.mysql56 => exact absurd rfl gathers
  case filePos.mariadb => exact absurd rfl gathers
  all_goals
    simp only [addGTID, flavor, GTID.flavor]
    constructor
    · exact .inl
    · rintro (applied | ⟨same, -⟩)
      · exact applied
      · exact absurd same (by decide)

@[simp] theorem flavor_union (gtidSet : GTIDSet) (other : Option GTIDSet) :
    (gtidSet.union other).flavor = gtidSet.flavor := by
  cases gtidSet <;> rcases other with _ | (_ | _ | _) <;> rfl

theorem wellFormed_union {gtidSet : GTIDSet} (wf : gtidSet.WellFormed) {other : GTIDSet}
    (otherWf : other.WellFormed) : (gtidSet.union (some other)).WellFormed := by
  cases gtidSet <;> cases other
  case mysql56.mysql56 set other => exact union_canonical wf otherWf
  case mariadb.mariadb set other => exact MariadbGTIDSet.keyedByDomain_union wf other
  all_goals exact wf

/-- `Union` of two well-formed sets of one flavor has applied what either has. -/
theorem applied_union {gtidSet other : GTIDSet} (wf : gtidSet.WellFormed)
    (otherWf : other.WellFormed) (same : gtidSet.flavor = other.flavor) (t : Transaction) :
    (gtidSet.union (some other)).Applied t ↔ gtidSet.Applied t ∨ other.Applied t := by
  cases gtidSet <;> cases other
  case mysql56.mysql56 set other =>
    cases t
    case mysql56 sid n => exact union_denotes wf.sortedByStart otherWf.sortedByStart sid n
    all_goals simp [union, Applied]
  case mariadb.mariadb set other =>
    cases t
    case mariadb domain sequence => exact MariadbGTIDSet.applied_union otherWf domain sequence
    all_goals simp [union, Applied]
  case filePos.filePos gtid other =>
    cases t
    case filePos position =>
      simp only [union, Applied]
      rw [FilePosGTID.place_union, le_max_iff]
    all_goals simp [union, Applied]
  all_goals
    simp only [flavor] at same
    exact absurd same (by decide)

end GTIDSet

/-- `Union` of two well-formed sets of one flavor has applied exactly what either
has and is well formed, so it contains both, and a well-formed set contains it
exactly when it contains both: it is their least upper bound for `Contains`. -/
theorem union_least_upper_bound {gtidSet other : GTIDSet} (wf : gtidSet.WellFormed)
    (otherWf : other.WellFormed) (same : gtidSet.flavor = other.flavor) :
    (∀ t, (gtidSet.union (some other)).Applied t ↔ gtidSet.Applied t ∨ other.Applied t) ∧
      (gtidSet.union (some other)).WellFormed ∧
      (gtidSet.union (some other)).contains (some gtidSet) = true ∧
      (gtidSet.union (some other)).contains (some other) = true ∧
      ∀ bound : GTIDSet, bound.WellFormed →
        (bound.contains (some (gtidSet.union (some other))) = true ↔
          bound.contains (some gtidSet) = true ∧ bound.contains (some other) = true) := by
  have points := GTIDSet.applied_union wf otherWf same
  have unionWf := GTIDSet.wellFormed_union wf otherWf
  refine ⟨points, unionWf, ?_, ?_, fun bound boundWf => ?_⟩
  · rw [GTIDSet.contains_iff_applied unionWf wf, GTIDSet.flavor_union]
    exact ⟨rfl, fun t applied => (points t).mpr (.inl applied)⟩
  · rw [GTIDSet.contains_iff_applied unionWf otherWf, GTIDSet.flavor_union]
    exact ⟨same, fun t applied => (points t).mpr (.inr applied)⟩
  · rw [GTIDSet.contains_iff_applied boundWf unionWf, GTIDSet.contains_iff_applied boundWf wf,
      GTIDSet.contains_iff_applied boundWf otherWf, GTIDSet.flavor_union, ← same]
    constructor
    · rintro ⟨sameFlavor, within⟩
      exact ⟨⟨sameFlavor, fun t applied => within t ((points t).mpr (.inl applied))⟩,
        ⟨sameFlavor, fun t applied => within t ((points t).mpr (.inr applied))⟩⟩
    · rintro ⟨⟨sameFlavor, ofSet⟩, ⟨-, ofOther⟩⟩
      refine ⟨sameFlavor, fun t applied => ?_⟩
      rcases (points t).mp applied with mine | theirs
      · exact ofSet t mine
      · exact ofOther t theirs

theorem union_least_upper_bound_mariadb :
    GTIDSet.WellFormed (.mariadb (AList.insert 0 ⟨0, 1, 5⟩ ∅)) ∧
      GTIDSet.WellFormed (.mariadb (AList.insert 0 ⟨0, 2, 7⟩ ∅)) ∧
      GTIDSet.flavor (.mariadb (AList.insert 0 ⟨0, 1, 5⟩ ∅)) =
        GTIDSet.flavor (.mariadb (AList.insert 0 ⟨0, 2, 7⟩ ∅)) ∧
      ((∀ t, (GTIDSet.union (.mariadb (AList.insert 0 ⟨0, 1, 5⟩ ∅))
            (some (.mariadb (AList.insert 0 ⟨0, 2, 7⟩ ∅)))).Applied t ↔
          GTIDSet.Applied (.mariadb (AList.insert 0 ⟨0, 1, 5⟩ ∅)) t ∨
            GTIDSet.Applied (.mariadb (AList.insert 0 ⟨0, 2, 7⟩ ∅)) t) ∧
        (GTIDSet.union (.mariadb (AList.insert 0 ⟨0, 1, 5⟩ ∅))
          (some (.mariadb (AList.insert 0 ⟨0, 2, 7⟩ ∅)))).WellFormed ∧
        (GTIDSet.union (.mariadb (AList.insert 0 ⟨0, 1, 5⟩ ∅))
          (some (.mariadb (AList.insert 0 ⟨0, 2, 7⟩ ∅)))).contains
            (some (.mariadb (AList.insert 0 ⟨0, 1, 5⟩ ∅))) = true ∧
        (GTIDSet.union (.mariadb (AList.insert 0 ⟨0, 1, 5⟩ ∅))
          (some (.mariadb (AList.insert 0 ⟨0, 2, 7⟩ ∅)))).contains
            (some (.mariadb (AList.insert 0 ⟨0, 2, 7⟩ ∅))) = true ∧
        ∀ bound : GTIDSet, bound.WellFormed →
          (bound.contains (some (GTIDSet.union (.mariadb (AList.insert 0 ⟨0, 1, 5⟩ ∅))
              (some (.mariadb (AList.insert 0 ⟨0, 2, 7⟩ ∅))))) = true ↔
            bound.contains (some (.mariadb (AList.insert 0 ⟨0, 1, 5⟩ ∅))) = true ∧
              bound.contains (some (.mariadb (AList.insert 0 ⟨0, 2, 7⟩ ∅))) = true)) :=
  ⟨by decide, by decide, rfl, union_least_upper_bound (by decide) (by decide) rfl⟩

/-! ### Positions -/

namespace Position

@[simp] theorem applied_zero (t : Transaction) : ¬ Position.Applied ⟨none⟩ t := by
  simp [Position.Applied]

@[simp] theorem applied_some (gtidSet : GTIDSet) (t : Transaction) :
    Position.Applied ⟨some gtidSet⟩ t ↔ gtidSet.Applied t := by
  simp [Position.Applied]

/-- `AtLeast` of well-formed positions: the other position is zero, or both have
sets of one flavor and ours has applied all the other has. -/
theorem atLeast_iff {rp other : Position} (wf : rp.WellFormed) (otherWf : other.WellFormed) :
    rp.atLeast other = true ↔ other.gtidSet = none ∨
      ∃ gtidSet otherSet, rp.gtidSet = some gtidSet ∧ other.gtidSet = some otherSet ∧
        gtidSet.flavor = otherSet.flavor ∧ ∀ t, other.Applied t → rp.Applied t := by
  rcases rp with ⟨_ | gtidSet⟩ <;> rcases other with ⟨_ | otherSet⟩
  · simp [atLeast]
  · simp [atLeast]
  · simp [atLeast]
  · simp only [atLeast, GTIDSet.contains_iff_applied (wf gtidSet rfl) (otherWf otherSet rfl),
      applied_some, reduceCtorEq, Option.some.injEq, exists_and_left, exists_eq_left', false_or]

theorem atLeast_refl {rp : Position} (wf : rp.WellFormed) : rp.atLeast rp = true := by
  rcases rp with ⟨_ | gtidSet⟩
  · rfl
  · exact (atLeast_iff wf wf).mpr (.inr ⟨gtidSet, gtidSet, rfl, rfl, rfl, fun _ applied => applied⟩)

theorem atLeast_trans {rp middle other : Position} (wf : rp.WellFormed)
    (middleWf : middle.WellFormed) (otherWf : other.WellFormed)
    (above : rp.atLeast middle = true) (below : middle.atLeast other = true) :
    rp.atLeast other = true := by
  rw [atLeast_iff wf otherWf]
  rcases (atLeast_iff middleWf otherWf).mp below with zero | ⟨middleSet, otherSet, isMiddle, isOther,
    middleFlavor, middleWithin⟩
  · exact .inl zero
  rcases (atLeast_iff wf middleWf).mp above with middleZero | ⟨gtidSet, middleSet', isOurs, isMiddle',
    flavor, within⟩
  · rw [isMiddle] at middleZero
    cases middleZero
  rw [isMiddle, Option.some.injEq] at isMiddle'
  subst isMiddle'
  exact .inr ⟨gtidSet, otherSet, isOurs, isOther, flavor.trans middleFlavor,
    fun t applied => within t (middleWithin t applied)⟩

end Position

/-- On well-formed positions `AtLeast` is inclusion of what they have applied, for
positions of one flavor, with the zero position below every other; so it is
reflexive and transitive. -/
theorem atLeast_is_inclusion {rp other third : Position} (wf : rp.WellFormed)
    (otherWf : other.WellFormed) (thirdWf : third.WellFormed) :
    (rp.atLeast other = true ↔ other.gtidSet = none ∨
      ∃ gtidSet otherSet, rp.gtidSet = some gtidSet ∧ other.gtidSet = some otherSet ∧
        gtidSet.flavor = otherSet.flavor ∧ ∀ t, other.Applied t → rp.Applied t) ∧
      rp.atLeast rp = true ∧
      (rp.atLeast other = true → other.atLeast third = true → rp.atLeast third = true) :=
  ⟨Position.atLeast_iff wf otherWf, Position.atLeast_refl wf,
    Position.atLeast_trans wf otherWf thirdWf⟩

/-- Two binlog places in one file and one in the next. -/
theorem atLeast_is_inclusion_file_positions :
    Position.WellFormed ⟨some (.filePos ⟨"binlog.000002".toList, 4⟩)⟩ ∧
      Position.WellFormed ⟨some (.filePos ⟨"binlog.000001".toList, 900⟩)⟩ ∧
      Position.WellFormed ⟨some (.filePos ⟨"binlog.000001".toList, 4⟩)⟩ ∧
      ((Position.atLeast ⟨some (.filePos ⟨"binlog.000002".toList, 4⟩)⟩
          ⟨some (.filePos ⟨"binlog.000001".toList, 900⟩)⟩ = true ↔
        Position.gtidSet ⟨some (.filePos ⟨"binlog.000001".toList, 900⟩)⟩ = none ∨
          ∃ gtidSet otherSet,
            Position.gtidSet ⟨some (.filePos ⟨"binlog.000002".toList, 4⟩)⟩ = some gtidSet ∧
            Position.gtidSet ⟨some (.filePos ⟨"binlog.000001".toList, 900⟩)⟩ = some otherSet ∧
            gtidSet.flavor = otherSet.flavor ∧
            ∀ t, Position.Applied ⟨some (.filePos ⟨"binlog.000001".toList, 900⟩)⟩ t →
              Position.Applied ⟨some (.filePos ⟨"binlog.000002".toList, 4⟩)⟩ t) ∧
        Position.atLeast ⟨some (.filePos ⟨"binlog.000002".toList, 4⟩)⟩
          ⟨some (.filePos ⟨"binlog.000002".toList, 4⟩)⟩ = true ∧
        (Position.atLeast ⟨some (.filePos ⟨"binlog.000002".toList, 4⟩)⟩
            ⟨some (.filePos ⟨"binlog.000001".toList, 900⟩)⟩ = true →
          Position.atLeast ⟨some (.filePos ⟨"binlog.000001".toList, 900⟩)⟩
            ⟨some (.filePos ⟨"binlog.000001".toList, 4⟩)⟩ = true →
          Position.atLeast ⟨some (.filePos ⟨"binlog.000002".toList, 4⟩)⟩
            ⟨some (.filePos ⟨"binlog.000001".toList, 4⟩)⟩ = true)) :=
  ⟨by decide, by decide, by decide, atLeast_is_inclusion (by decide) (by decide) (by decide)⟩

/-! ### Runs of `AppendGTID` -/

section Append

/-- The positions that gather GTIDs: zero, or a MySQL 5.6 or MariaDB set. -/
def Position.Gathers (rp : Position) : Prop :=
  ∀ gtidSet ∈ rp.gtidSet, gtidSet.flavor ≠ filePosFlavorID

instance (rp : Position) : Decidable rp.Gathers :=
  inferInstanceAs (Decidable (∀ gtidSet ∈ rp.gtidSet, _))

/-- A GTID of a stream that a gathering position takes in. -/
def GTID.Gathered (gtid : GTID) : Prop :=
  gtid.Valid ∧ gtid.flavor ≠ filePosFlavorID

instance : DecidablePred GTID.Gathered :=
  fun gtid => inferInstanceAs (Decidable (gtid.Valid ∧ _))

variable {rp : Position} (wf : rp.WellFormed) (gathers : rp.Gathers)

include wf in
theorem wellFormed_appendGTID {g : Option GTID} (valid : ∀ gtid ∈ g, gtid.Valid) :
    (appendGTID rp g).WellFormed := by
  rcases g with _ | gtid
  · exact wf
  rcases rp with ⟨_ | gtidSet⟩ <;> rintro _ ⟨⟩
  · exact GTIDSet.wellFormed_gtidSet (valid gtid rfl)
  · exact GTIDSet.wellFormed_addGTID (wf gtidSet rfl) (valid gtid rfl)

include gathers in
theorem gathers_appendGTID {g : Option GTID} (gathered : ∀ gtid ∈ g, gtid.flavor ≠ filePosFlavorID) :
    (appendGTID rp g).Gathers := by
  rcases g with _ | gtid
  · exact gathers
  rcases rp with ⟨_ | gtidSet⟩ <;> rintro _ ⟨⟩
  · rw [GTIDSet.flavor_gtidSet]
    exact gathered gtid rfl
  · rw [GTIDSet.flavor_addGTID]
    exact gathers gtidSet rfl

/-- `AppendGTID` of a gathering position keeps the flavor of its set. -/
theorem flavor_appendGTID (g : Option GTID) :
    ∀ gtidSet ∈ rp.gtidSet, ∃ appended, (appendGTID rp g).gtidSet = some appended ∧
      appended.flavor = gtidSet.flavor := by
  rintro gtidSet isSet
  rw [Option.mem_def] at isSet
  rcases g with _ | gtid
  · exact ⟨gtidSet, isSet, rfl⟩
  · refine ⟨gtidSet.addGTID gtid, by simp [appendGTID, isSet], GTIDSet.flavor_addGTID _ _⟩

include wf gathers in
/-- `AppendGTID` of a gathering position adds what the GTID's own set has
applied, when the GTID is of the position's flavor. -/
theorem applied_appendGTID (g : Option GTID) (t : Transaction) :
    (appendGTID rp g).Applied t ↔
      rp.Applied t ∨ ∃ gtid ∈ g, (∀ gtidSet ∈ rp.gtidSet, gtidSet.flavor = gtid.flavor) ∧
        gtid.gtidSet.Applied t := by
  rcases g with _ | gtid
  · simp [appendGTID]
  rcases rp with ⟨_ | gtidSet⟩
  · simp [appendGTID]
  · simp only [appendGTID, Position.applied_some, Option.mem_def, Option.some.injEq,
      forall_eq', exists_eq_left']
    exact GTIDSet.applied_addGTID (wf gtidSet rfl) (gathers gtidSet rfl) gtid t

include wf gathers in
/-- One step of a stream: the position moves forward, and has applied the GTID
when it is of the position's flavor. -/
theorem atLeast_appendGTID {g : Option GTID} (gathered : ∀ gtid ∈ g, gtid.Gathered) :
    (appendGTID rp g).atLeast rp = true ∧
      ∀ gtid ∈ g, (∀ gtidSet ∈ (appendGTID rp g).gtidSet, gtidSet.flavor = gtid.flavor) →
        (appendGTID rp g).atLeast ⟨some gtid.gtidSet⟩ = true := by
  have appendedWf := wellFormed_appendGTID wf fun gtid isG => (gathered gtid isG).1
  have points := applied_appendGTID wf gathers g
  constructor
  · rw [Position.atLeast_iff appendedWf wf]
    rcases rp with ⟨_ | gtidSet⟩
    · exact .inl rfl
    obtain ⟨appended, isAppended, sameFlavor⟩ := flavor_appendGTID g gtidSet rfl
    exact .inr ⟨appended, gtidSet, isAppended, rfl, sameFlavor,
      fun t applied => (points t).mpr (.inl applied)⟩
  · rintro gtid rfl compatible
    have gtidWf := GTIDSet.wellFormed_gtidSet (gathered gtid rfl).1
    rw [Position.atLeast_iff appendedWf fun _ isSet => (Option.some.inj isSet) ▸ gtidWf]
    -- the set after the step exists, and its flavor is the GTID's
    have stepped : ∃ appended, (appendGTID rp (some gtid)).gtidSet = some appended := by
      rcases rp with ⟨_ | gtidSet⟩ <;> exact ⟨_, rfl⟩
    obtain ⟨appended, isAppended⟩ := stepped
    refine .inr ⟨appended, gtid.gtidSet, isAppended, rfl,
      (compatible appended isAppended).trans (GTIDSet.flavor_gtidSet gtid).symm, fun t applied => ?_⟩
    rw [Position.applied_some] at applied
    refine (points t).mpr (.inr ⟨gtid, rfl, fun gtidSet isSet => ?_, applied⟩)
    obtain ⟨appended', isAppended', sameFlavor⟩ := flavor_appendGTID (some gtid) gtidSet isSet
    rw [isAppended, Option.some.injEq] at isAppended'
    subst isAppended'
    exact sameFlavor ▸ compatible appended isAppended

theorem Position.wellFormed_some {gtidSet : GTIDSet} (wf : gtidSet.WellFormed) :
    Position.WellFormed ⟨some gtidSet⟩ := by
  rintro _ ⟨⟩
  exact wf

/-- A run from a position that is not a file position keeps the flavor of its set. -/
theorem flavor_appendGTIDs : ∀ (gtids : List (Option GTID)) {rp : Position},
    ∀ gtidSet ∈ rp.gtidSet, ∃ appended, (appendGTIDs rp gtids).gtidSet = some appended ∧
      appended.flavor = gtidSet.flavor
  | [], _, gtidSet, isSet => ⟨gtidSet, isSet, rfl⟩
  | g :: gtids, _, gtidSet, isSet => by
    obtain ⟨stepped, isStepped, steppedFlavor⟩ := flavor_appendGTID g gtidSet isSet
    obtain ⟨appended, isAppended, appendedFlavor⟩ := flavor_appendGTIDs gtids stepped isStepped
    exact ⟨appended, isAppended, appendedFlavor.trans steppedFlavor⟩

/-- A run of `AppendGTID` from a gathering position over gathered GTIDs stays well
formed and gathering, ends at least where it started, and ends having applied
each GTID of its flavor. The induction is on the stream; each step is
`atLeast_appendGTID`, and `atLeast_trans` carries the step's facts to the end. -/
theorem appendGTIDs_run : ∀ (gtids : List (Option GTID)) {rp : Position}, rp.WellFormed →
    rp.Gathers → (∀ g ∈ gtids, ∀ gtid ∈ g, gtid.Gathered) →
    (appendGTIDs rp gtids).WellFormed ∧ (appendGTIDs rp gtids).Gathers ∧
      (appendGTIDs rp gtids).atLeast rp = true ∧
      ∀ g ∈ gtids, ∀ gtid ∈ g,
        (∀ gtidSet ∈ (appendGTIDs rp gtids).gtidSet, gtidSet.flavor = gtid.flavor) →
          (appendGTIDs rp gtids).atLeast ⟨some gtid.gtidSet⟩ = true
  | [], _, wf, gathers, _ => ⟨wf, gathers, Position.atLeast_refl wf, by simp⟩
  | g :: gtids, rp, wf, gathers, gathered => by
    have first : ∀ gtid ∈ g, gtid.Gathered := gathered g List.mem_cons_self
    have steppedWf := wellFormed_appendGTID wf fun gtid isG => (first gtid isG).1
    have steppedGathers := gathers_appendGTID gathers fun gtid isG => (first gtid isG).2
    obtain ⟨stepAbove, stepApplied⟩ := atLeast_appendGTID wf gathers first
    obtain ⟨finalWf, finalGathers, finalAbove, finalApplied⟩ :=
      appendGTIDs_run gtids steppedWf steppedGathers fun later member =>
        gathered later (List.mem_cons_of_mem g member)
    refine ⟨finalWf, finalGathers, Position.atLeast_trans finalWf steppedWf wf finalAbove stepAbove,
      fun g' member gtid isG compatible => ?_⟩
    rcases List.mem_cons.mp member with rfl | later
    · -- the GTID of this step: the run keeps the flavor the step left
      have stepCompatible : ∀ gtidSet ∈ (appendGTID rp g').gtidSet, gtidSet.flavor = gtid.flavor := by
        intro gtidSet isSet
        obtain ⟨appended, isAppended, sameFlavor⟩ := flavor_appendGTIDs gtids gtidSet isSet
        exact sameFlavor ▸ compatible appended isAppended
      exact Position.atLeast_trans finalWf steppedWf
        (Position.wellFormed_some (GTIDSet.wellFormed_gtidSet (first gtid isG).1)) finalAbove
        (stepApplied gtid isG stepCompatible)
    · exact finalApplied g' later gtid isG compatible

end Append

/-- A stream of MySQL 5.6 or MariaDB GTIDs appended with `AppendGTID` to a
well-formed position that is not a file position never moves it back: every
position of the run is well formed and at least every earlier one, and it has
applied every GTID appended so far that is of its flavor. -/
theorem appendGTIDs_moves_forward (rp : Position) (gtids : List (Option GTID))
    (wf : rp.WellFormed) (gathers : rp.Gathers) (gathered : ∀ g ∈ gtids, ∀ gtid ∈ g, gtid.Gathered)
    {i j : ℕ} (le : i ≤ j) :
    (appendGTIDs rp (gtids.take j)).WellFormed ∧
      (appendGTIDs rp (gtids.take j)).atLeast (appendGTIDs rp (gtids.take i)) = true ∧
      ∀ g ∈ gtids.take j, ∀ gtid ∈ g,
        (∀ gtidSet ∈ (appendGTIDs rp (gtids.take j)).gtidSet, gtidSet.flavor = gtid.flavor) →
          (appendGTIDs rp (gtids.take j)).atLeast ⟨some gtid.gtidSet⟩ = true := by
  have taken : ∀ n, ∀ g ∈ gtids.take n, ∀ gtid ∈ g, gtid.Gathered :=
    fun n g member => gathered g (List.mem_of_mem_take member)
  -- the run to `j` is the run to `i` followed by the GTIDs between them
  have split : appendGTIDs rp (gtids.take j) =
      appendGTIDs (appendGTIDs rp (gtids.take i)) ((gtids.take j).drop i) := by
    have pieces : gtids.take i ++ (gtids.take j).drop i = gtids.take j := by
      conv_rhs => rw [← List.take_append_drop i (gtids.take j)]
      rw [List.take_take, min_eq_left le]
    conv_lhs => rw [← pieces]
    rw [appendGTIDs, appendGTIDs, appendGTIDs, List.foldl_append]
  obtain ⟨prefixWf, prefixGathers, -, -⟩ := appendGTIDs_run (gtids.take i) wf gathers (taken i)
  obtain ⟨-, -, restAbove, -⟩ := appendGTIDs_run ((gtids.take j).drop i) prefixWf prefixGathers
    fun g member => taken j g (List.mem_of_mem_drop member)
  obtain ⟨finalWf, -, -, finalApplied⟩ := appendGTIDs_run (gtids.take j) wf gathers (taken j)
  exact ⟨finalWf, split ▸ restAbove, finalApplied⟩

/-- A MariaDB stream: a GTID, a nil one, an older GTID of the same domain, and one
of another domain. -/
def mariadbStream : List (Option GTID) :=
  [some (.mariadb ⟨0, 1, 5⟩), none, some (.mariadb ⟨0, 2, 3⟩), some (.mariadb ⟨1, 1, 9⟩)]

theorem appendGTIDs_moves_forward_mariadb :
    Position.WellFormed ⟨none⟩ ∧ Position.Gathers ⟨none⟩ ∧
      (∀ g ∈ mariadbStream, ∀ gtid ∈ g, gtid.Gathered) ∧
      ((appendGTIDs ⟨none⟩ (mariadbStream.take 4)).WellFormed ∧
        (appendGTIDs ⟨none⟩ (mariadbStream.take 4)).atLeast
            (appendGTIDs ⟨none⟩ (mariadbStream.take 1)) = true ∧
        ∀ g ∈ mariadbStream.take 4, ∀ gtid ∈ g,
          (∀ gtidSet ∈ (appendGTIDs ⟨none⟩ (mariadbStream.take 4)).gtidSet,
            gtidSet.flavor = gtid.flavor) →
          (appendGTIDs ⟨none⟩ (mariadbStream.take 4)).atLeast ⟨some gtid.gtidSet⟩ = true) :=
  ⟨by decide, by decide, by decide, appendGTIDs_moves_forward _ _ (by decide) (by decide) (by decide)
    (by decide : 1 ≤ 4)⟩

end Vitess.Replication
