import Vitess.Replication.SidBlock
import Vitess.Replication.MariadbGtid

/-!
# Replication positions

`go/mysql/replication/replication_position.go`, the `GTIDSet` interface of
`gtid_set.go` and the file-position flavor of `filepos_gtid.go`. A position holds
a GTID set of one of three flavors, or nil. `EncodePosition` writes the flavor's
name, a slash and the set's `String`; `DecodePosition` cuts the text at the first
slash and hands the rest to the parser registered for the flavor.

Each flavor's text is read back by its parser, under what that parser needs of the
value (`GTIDSet.Printable`): so a position survives its encoding, up to `Equal`
(`decodePosition_encodePosition`).
-/

namespace Vitess.Replication

open Vitess.Go Vitess.IntervalList

/-! ### The file-position flavor -/

/-- `FilePosGTID`: a binlog file name and a position in it. -/
structure FilePosGTID where
  file : List Char
  pos : UInt32
  deriving DecidableEq, Repr

/-- The errors of `parseFilePosGTID`, with the text their messages quote. -/
inductive FilePosParseError where
  /-- `invalid FilePos GTID (%v): expecting file:pos`. -/
  | expectingFilePos (s : List Char)
  /-- `invalid FilePos GTID (%v): expecting pos to be an integer`. -/
  | expectingPosInteger (s : List Char)
  deriving DecidableEq, Repr

/-- `parseFilePosGTID`: exactly two parts around colons, the second read by
`strconv.ParseUint(_, 0, 32)`. -/
def parseFilePosGTID (s : List Char) : Except FilePosParseError FilePosGTID :=
  match s.splitOn ':' with
  | [part0, part1] =>
    match parseUintBase0 part1 32 with
    | .error _ => .error (.expectingPosInteger s)
    | .ok pos => .ok ⟨part0, pos.toUInt32⟩
  | _ => .error (.expectingFilePos s)

/-- `FilePosGTID.String`: `%s:%d`. -/
def FilePosGTID.string (gtid : FilePosGTID) : List Char :=
  gtid.file ++ ':' :: formatUint gtid.pos.toNat

/-- `parseFilePosGTID` reads back what `String` writes, when the file name has no
colon. -/
theorem parseFilePosGTID_string {gtid : FilePosGTID} (noColon : ':' ∉ gtid.file) :
    parseFilePosGTID gtid.string = .ok gtid := by
  have digitsClean : ':' ∉ formatUint gtid.pos.toNat := fun colon =>
    (separators_of_isDigit (isDigit_of_mem_formatUint colon)).2.1 rfl
  have parts : gtid.string.splitOn ':' = [gtid.file, formatUint gtid.pos.toNat] := by
    have split : ([':'].intercalate [gtid.file, formatUint gtid.pos.toNat]).splitOn ':' =
        [gtid.file, formatUint gtid.pos.toNat] :=
      List.splitOn_intercalate ':' (by simp [noColon, digitsClean]) (List.cons_ne_nil _ _)
    simpa [List.intercalate_cons_cons, FilePosGTID.string] using split
  rw [parseFilePosGTID, parts]
  simp [parseUintBase0_formatUint (by decide : 32 ≤ 64) gtid.pos.toNat_lt]

/-! ### GTID sets of every flavor -/

/-- The implementations of the `GTIDSet` interface. -/
inductive GTIDSet where
  | mysql56 (set : Mysql56GTIDSet)
  | mariadb (set : MariadbGTIDSet)
  | filePos (gtid : FilePosGTID)

/-- `Mysql56FlavorID`. -/
def mysql56FlavorID : List Char := "MySQL56".toList

/-- `MariadbFlavorID`. -/
def mariadbFlavorID : List Char := "MariaDB".toList

/-- `FilePosFlavorID`. -/
def filePosFlavorID : List Char := "FilePos".toList

/-- `GTIDSet.Flavor`. -/
def GTIDSet.flavor : GTIDSet → List Char
  | .mysql56 _ => mysql56FlavorID
  | .mariadb _ => mariadbFlavorID
  | .filePos _ => filePosFlavorID

/-- `GTIDSet.String`. -/
def GTIDSet.string : GTIDSet → List Char
  | .mysql56 set => set.string
  | .mariadb set => set.string
  | .filePos gtid => gtid.string

/-- `GTIDSet.Equal`: each implementation first asserts the other's type, so a set
of another flavor, or nil, is never equal. -/
def GTIDSet.equal : GTIDSet → Option GTIDSet → Bool
  | .mysql56 set, some (.mysql56 other) => set.equal other
  | .mariadb set, some (.mariadb other) => set.equal other
  | .filePos gtid, some (.filePos other) => gtid == other
  | _, _ => false

/-- The errors of `ParsePosition`. -/
inductive PositionError where
  /-- `parse error: unknown GTIDSet flavor %#v`. -/
  | unknownFlavor (flavor : List Char)
  | mysql56 (err : ParseError)
  | mariadb (err : MariadbParseError)
  | filePos (err : FilePosParseError)
  deriving DecidableEq, Repr

/-! ### Positions -/

/-- `Position`: a GTID set, or nil for the zero position. -/
structure Position where
  gtidSet : Option GTIDSet

/-- `Position.Equal`. -/
def Position.equal (rp other : Position) : Bool :=
  match rp.gtidSet with
  | none => other.gtidSet.isNone
  | some gtidSet => gtidSet.equal other.gtidSet

/-- `Position.IsZero`. -/
def Position.isZero (rp : Position) : Bool :=
  rp.gtidSet.isNone

/-- `EncodePosition`: empty for the zero position, else `%s/%s` of the flavor and
the set. -/
def encodePosition (rp : Position) : List Char :=
  match rp.gtidSet with
  | none => []
  | some gtidSet => gtidSet.flavor ++ '/' :: gtidSet.string

section Decode

variable (sortFunc : List Interval → List Interval)

/-- `gtidSetParsers`: the parser each flavor's file registers. -/
def gtidSetParsers (flavor : List Char) : Option (List Char → Except PositionError GTIDSet) :=
  if flavor = mysql56FlavorID then
    some fun s => GTIDSet.mysql56 <$> (parseMysql56GTIDSet sortFunc s).mapError .mysql56
  else if flavor = mariadbFlavorID then
    some fun s => GTIDSet.mariadb <$> (parseMariadbGTIDSet s).mapError .mariadb
  else if flavor = filePosFlavorID then
    some fun s => GTIDSet.filePos <$> (parseFilePosGTID s).mapError .filePos
  else none

/-- `ParsePosition`: the parser registered for the flavor, or an error naming an
unknown flavor. -/
def parsePosition (flavor value : List Char) : Except PositionError Position :=
  match gtidSetParsers sortFunc flavor with
  | none => .error (.unknownFlavor flavor)
  | some parser => (fun gtidSet => ⟨some gtidSet⟩) <$> parser value

/-- `DecodePosition`: the zero position for empty text; else the flavor before
the first slash, or the default (empty) flavor when there is none. -/
def decodePosition (s : List Char) : Except PositionError Position :=
  if s.isEmpty then .ok ⟨none⟩
  else
    let (flav, gtid, ok) := cut s '/'
    if !ok then parsePosition sortFunc [] s else parsePosition sortFunc flav gtid

end Decode

/-! ### Reading an encoded position back -/

/-- What each flavor's parser needs to read a set back from its `String`: a
normalized MySQL 5.6 set, a MariaDB set whose keys are its GTIDs' domains, a file
name without a colon. -/
def GTIDSet.Printable : GTIDSet → Prop
  | .mysql56 set => set.Normalized
  | .mariadb set => set.KeyedByDomain
  | .filePos gtid => ':' ∉ gtid.file

instance : DecidablePred GTIDSet.Printable
  | .mysql56 set => inferInstanceAs (Decidable set.Normalized)
  | .mariadb set => inferInstanceAs (Decidable set.KeyedByDomain)
  | .filePos gtid => inferInstanceAs (Decidable (':' ∉ gtid.file))

theorem slash_not_mem_flavor (gtidSet : GTIDSet) : '/' ∉ gtidSet.flavor := by
  cases gtidSet <;> simp only [GTIDSet.flavor] <;> decide

section RoundTrip

variable {sortFunc : List Interval → List Interval} (sorts : SortsByStart sortFunc)
include sorts

/-- The parser registered for a set's flavor reads the set back from its
`String`, up to `Equal`. -/
theorem gtidSetParsers_string {gtidSet : GTIDSet} (printable : gtidSet.Printable) :
    ∃ parser parsed, gtidSetParsers sortFunc gtidSet.flavor = some parser ∧
      parser gtidSet.string = .ok parsed ∧ parsed.equal (some gtidSet) = true := by
  cases gtidSet with
  | mysql56 set =>
    obtain ⟨parsed, read, same⟩ := parseMysql56GTIDSet_string sorts printable
    refine ⟨_, .mysql56 parsed, rfl, ?_, Mysql56GTIDSet.equal_of_lookup same⟩
    simp [GTIDSet.string, read, Except.mapError]
  | mariadb set =>
    obtain ⟨parsed, read, same⟩ := parseMariadbGTIDSet_string printable
    refine ⟨_, .mariadb parsed, rfl, ?_, MariadbGTIDSet.equal_of_lookup same⟩
    simp [GTIDSet.string, read, Except.mapError]
  | filePos gtid =>
    refine ⟨_, .filePos gtid, rfl, ?_, by simp [GTIDSet.equal]⟩
    simp [GTIDSet.string, parseFilePosGTID_string printable, Except.mapError]

/-- `DecodePosition` reads back what `EncodePosition` writes, up to `Equal`, for
a position whose set its flavor's parser can read back. -/
theorem decodePosition_encodePosition {rp : Position}
    (printable : ∀ gtidSet ∈ rp.gtidSet, gtidSet.Printable) :
    ∃ decoded, decodePosition sortFunc (encodePosition rp) = .ok decoded ∧
      decoded.equal rp = true := by
  rcases rp with ⟨_ | gtidSet⟩
  · exact ⟨⟨none⟩, rfl, rfl⟩
  · obtain ⟨parser, parsed, registered, read, same⟩ :=
      gtidSetParsers_string sorts (printable gtidSet rfl)
    refine ⟨⟨some parsed⟩, ?_, same⟩
    have notEmpty : (gtidSet.flavor ++ '/' :: gtidSet.string).isEmpty = false := by simp
    simp only [decodePosition, encodePosition, notEmpty, Bool.false_eq_true, if_false,
      cut_append (slash_not_mem_flavor gtidSet), Bool.not_true]
    simp [parsePosition, registered, read]

end RoundTrip

/-- Positions survive their text encoding, up to `Equal`, and MySQL 5.6 sets
their binary SID block. -/
theorem position_encoding_round_trips {sortFunc : List Interval → List Interval}
    (sorts : SortsByStart sortFunc) :
    (∀ rp : Position, (∀ gtidSet ∈ rp.gtidSet, gtidSet.Printable) →
      ∃ decoded, decodePosition sortFunc (encodePosition rp) = .ok decoded ∧
        decoded.equal rp = true) ∧
    ∀ set : Mysql56GTIDSet, set.Normalized → set.entries.length < 2 ^ 63 →
      ∃ parsed, newMysql56GTIDSetFromSIDBlock set.sidBlock = .ok parsed ∧
        ∀ sid, parsed.lookup sid = set.lookup sid :=
  ⟨fun _ printable => decodePosition_encodePosition sorts printable,
    fun _ normalized goLen => newMysql56GTIDSetFromSIDBlock_sidBlock normalized goLen⟩

/-- The position `MySQL56/3e11fa47-71ca-11e1-9e33-c80aa9429562:1-5` and its set. -/
theorem position_encoding_round_trips_example :
    (∃ decoded, decodePosition startSort
        (encodePosition ⟨some (.mysql56 (AList.insert exampleSID [⟨1, 5⟩] ∅))⟩) = .ok decoded ∧
      decoded.equal ⟨some (.mysql56 (AList.insert exampleSID [⟨1, 5⟩] ∅))⟩ = true) ∧
    ∃ parsed, newMysql56GTIDSetFromSIDBlock
        (Mysql56GTIDSet.sidBlock (AList.insert exampleSID [⟨1, 5⟩] ∅)) = .ok parsed ∧
      ∀ sid, parsed.lookup sid = (AList.insert exampleSID [⟨1, 5⟩] ∅ : Mysql56GTIDSet).lookup sid :=
  ⟨(position_encoding_round_trips startSort_sortsByStart).1 _ (by decide),
    (position_encoding_round_trips startSort_sortsByStart).2 _ (by decide) (by decide)⟩

end Vitess.Replication
