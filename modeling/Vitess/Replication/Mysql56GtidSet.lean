import Vitess.Go.Strconv
import Vitess.Data.IntervalList
import Mathlib.Data.List.AList
import Mathlib.Data.List.Sort

/-!
# MySQL 5.6 GTID sets

`go/mysql/replication/mysql56_gtid_set.go` and `ParseSID` of `mysql56_gtid.go`.
A GTID set maps each server UUID (`SID`) to its intervals of transaction
sequence numbers; `ParseMysql56GTIDSet` reads the text form
`uuid:interval[:interval]...[,uuid:...]`, and `Contains` and `Equal` compare two
sets interval list by interval list.

The Go map is an `AList`, one entry per SID; `set[sid]` is `lookup` with a nil
(empty) slice for an absent SID. `slices.SortFunc` guarantees only that its
result is a permutation sorted by the comparator, so the sort is a parameter
described by `SortsByStart`.
-/

namespace Vitess.Replication

open Vitess.Go Vitess.IntervalList

/-- `SID`: the 16 bytes of a server UUID. -/
structure SID where
  bytes : List UInt8
  length_eq : bytes.length = 16
  deriving DecidableEq

/-- `Mysql56GTIDSet`: the intervals of each SID. -/
abbrev Mysql56GTIDSet := AList fun _ : SID => List Interval

/-- The errors of the parser, with the data their messages quote. -/
inductive ParseError where
  /-- `invalid MySQL 5.6 SID %q`: wrong length or misplaced dashes. -/
  | invalidSID (s : List Char)
  /-- `invalid MySQL 5.6 SID %q` wrapping `encoding/hex: invalid byte`. -/
  | invalidSIDByte (s : List Char) (c : Char)
  /-- `invalid interval (%q)` wrapping a `strconv` error. -/
  | invalidInterval (s : List Char) (err : NumError)
  /-- `invalid interval (%q): start must be > 0`. -/
  | intervalStartNotPositive (s : List Char)
  /-- `invalid MySQL 5.6 GTID set (%q): expected uuid:interval`. -/
  | expectedUuidInterval (s : List Char)
  /-- `invalid MySQL 5.6 GTID set (%q)` wrapping an error of the SID or an interval. -/
  | invalidGTIDSet (s : List Char) (err : ParseError)
  deriving DecidableEq, Repr

/-- `fromHexChar` of `encoding/hex`. -/
def fromHexChar (c : Char) : Option UInt8 :=
  if '0' ≤ c ∧ c ≤ '9' then some (c.toNat - '0'.toNat).toUInt8
  else if 'a' ≤ c ∧ c ≤ 'f' then some (c.toNat - 'a'.toNat + 10).toUInt8
  else if 'A' ≤ c ∧ c ≤ 'F' then some (c.toNat - 'A'.toNat + 10).toUInt8
  else none

/-- `hex.Decode` of pairs of hex digits: the bytes, or the first invalid digit. -/
def hexDecode : List Char → Except Char (List UInt8)
  | hi :: lo :: rest =>
    match fromHexChar hi, fromHexChar lo with
    | some a, some b => ((a <<< 4 ||| b) :: ·) <$> hexDecode rest
    | none, _ => .error hi
    | some _, none => .error lo
  | _ => .ok []

/-- Two hex digits decode to one byte. -/
theorem hexDecode_length : ∀ {s : List Char} {bytes : List UInt8},
    hexDecode s = .ok bytes → bytes.length = s.length / 2
  | hi :: lo :: rest, bytes, decoded => by
    simp only [hexDecode] at decoded
    split at decoded
    · cases restDecoded : hexDecode rest with
      | error c => simp [restDecoded] at decoded
      | ok tail =>
        simp only [restDecoded, Functor.map, Except.map, Except.ok.injEq] at decoded
        rw [← decoded, List.length_cons, hexDecode_length restDecoded]
        simp only [List.length_cons]
        omega
    · cases decoded
    · cases decoded
  | [], bytes, decoded => by
    simp only [hexDecode, Except.ok.injEq] at decoded
    simp [← decoded]
  | [_], bytes, decoded => by
    simp only [hexDecode, Except.ok.injEq] at decoded
    simp [← decoded]

/-- `ParseSID`: 36 characters, dashes at 8, 13, 18 and 23, and 32 hex digits. -/
def parseSID (s : List Char) : Except ParseError SID :=
  if hShape : s.length = 36 ∧ s[8]? = some '-' ∧ s[13]? = some '-' ∧ s[18]? = some '-' ∧
      s[23]? = some '-' then
    let digits := s.take 8 ++ (s.drop 9).take 4 ++ (s.drop 14).take 4 ++ (s.drop 19).take 4 ++
      s.drop 24
    match decoded : hexDecode digits with
    | .ok bytes => .ok ⟨bytes, by
        rw [hexDecode_length decoded]
        simp [digits, hShape.1]⟩
    | .error c => .error (.invalidSIDByte s c)
  else .error (.invalidSID s)

/-- `parseInterval`: `start` or `start-end`, each a `ParseUint(_, 10, 63)`, with
`start > 0`. The end is not compared with the start here. -/
def parseInterval (s : List Char) : Except ParseError Interval :=
  let (part0, part1, twoParts) := cut s '-'
  match parseUint part0 63 with
  | .error err => .error (.invalidInterval s err)
  | .ok start =>
    if start < 1 then .error (.intervalStartNotPositive s)
    else if twoParts then
      match parseUint part1 63 with
      | .error err => .error (.invalidInterval s err)
      | .ok stop => .ok ⟨start, stop⟩
    else .ok ⟨start, start⟩

/-- The pieces the loop `for len(tail) > 0 { head, tail = cut at the first sep }`
visits: the text between separators, with no piece after a final separator. -/
def cutLoop (sep : Char) : List Char → List (List Char)
  | [] => []
  | c :: rest =>
    if c = sep then [] :: cutLoop sep rest
    else
      match cutLoop sep rest with
      | [] => [[c]]
      | piece :: pieces => (c :: piece) :: pieces

/-- The interval loop of one `uuid_set`: an interval whose end is below its start
is discarded, as MySQL does. -/
def parseIntervals (s : List Char) : List (List Char) → Except ParseError (List Interval)
  | [] => .ok []
  | head :: rest =>
    match parseInterval head with
    | .error err => .error (.invalidGTIDSet s err)
    | .ok iv => (fun ivs => if iv.stop < iv.start then ivs else iv :: ivs) <$> parseIntervals s rest

/-- What `slices.SortFunc` guarantees for the comparator on `start`: a
permutation, sorted by start. The order of equal starts is unspecified. -/
structure SortsByStart (sortFunc : List Interval → List Interval) : Prop where
  perm : ∀ intervals, (sortFunc intervals).Perm intervals
  sorted : ∀ intervals, (sortFunc intervals).Pairwise fun a b => a.start ≤ b.start

section Parse

variable (sortFunc : List Interval → List Interval)

/-- One `uuid:interval[:interval]...` element of the text: its intervals are
appended to those already read for the SID, and the whole list is sorted. -/
def addUUIDSet (s : List Char) (set : Mysql56GTIDSet) (uuidSet : List Char) :
    Except ParseError Mysql56GTIDSet :=
  let uuidSet := trimSpace uuidSet
  if uuidSet.isEmpty then .ok set
  else
    let (head, tail, ok) := cut uuidSet ':'
    if !ok then .error (.expectedUuidInterval s)
    else
      match parseSID head with
      | .error err => .error (.invalidGTIDSet s err)
      | .ok sid =>
        match parseIntervals s (cutLoop ':' tail) with
        | .error err => .error err
        | .ok intervals =>
          -- all intervals may have been discarded
          if intervals.isEmpty then .ok set
          else
            let intervals := ((set.lookup sid).getD []) ++ intervals
            .ok (set.insert sid (sortFunc intervals))

/-- `ParseMysql56GTIDSet`: the comma-separated elements, added in order to an
empty set. -/
def parseMysql56GTIDSet (s : List Char) : Except ParseError Mysql56GTIDSet :=
  (cutLoop ',' s).foldlM (addUUIDSet sortFunc s) ∅

end Parse

/-! ### Comparing sets -/

/-- `interval.contains`. -/
def intervalContains (iv other : Interval) : Bool :=
  iv.start ≤ other.start && other.stop ≤ iv.stop

/-- The search of `Contains` for one interval: from our current interval on, the
first one that contains `iv`, and everything after it. -/
def seek (iv : Interval) : List Interval → Option (List Interval)
  | [] => none
  | mine :: rest => if intervalContains mine iv then some (mine :: rest) else seek iv rest

/-- `Contains` for one SID: each interval of `others` in turn is searched from
where the previous search stopped; the index `i` never moves back. -/
def coveredFrom : List Interval → List Interval → Bool
  | _, [] => true
  | mine, iv :: others =>
    match seek iv mine with
    | none => false
    | some rest => coveredFrom rest others

/-- `Mysql56GTIDSet.Contains`: every SID of `other` passes `coveredFrom` against
our intervals of that SID. -/
def Mysql56GTIDSet.contains (set other : Mysql56GTIDSet) : Bool :=
  other.entries.all fun entry => coveredFrom ((set.lookup entry.1).getD []) entry.2

/-- `Mysql56GTIDSet.Equal`: as many SIDs, and for each of ours the same interval
list. -/
def Mysql56GTIDSet.equal (set other : Mysql56GTIDSet) : Bool :=
  set.entries.length == other.entries.length &&
    set.entries.all fun entry => entry.2 == (other.lookup entry.1).getD []

/-- The GTIDs a set denotes: `(sid, n)` with `n` in one of the intervals of `sid`. -/
def Mysql56GTIDSet.Denotes (set : Mysql56GTIDSet) (sid : SID) (n : ℤ) : Prop :=
  IntervalList.Denotes ((set.lookup sid).getD []) n

/-! ### Sets whose intervals are split -/

/-- Insertion sort by start: what `slices.SortFunc` runs on fewer than 13
elements, and one sort `SortsByStart` allows. -/
def startSort (intervals : List Interval) : List Interval :=
  intervals.insertionSort fun a b => a.start ≤ b.start

theorem startSort_sortsByStart : SortsByStart startSort :=
  ⟨fun intervals => List.perm_insertionSort _ intervals,
    fun intervals => List.pairwise_insertionSort _ intervals⟩

/-- The server UUID `3E11FA47-71CA-11E1-9E33-C80AA9429562`. -/
def exampleSID : SID :=
  ⟨[0x3E, 0x11, 0xFA, 0x47, 0x71, 0xCA, 0x11, 0xE1, 0x9E, 0x33, 0xC8, 0x0A, 0xA9, 0x42, 0x95, 0x62],
    rfl⟩

/-- The same transactions written as two touching intervals and as one: the
parser keeps `1-5:6-10` as two intervals, so `Contains` finds no single one of
them holding `1-10` and `Equal` sees different lists, although both texts denote
exactly the GTIDs `1..10` of the server. -/
theorem contains_misses_split_intervals :
    parseMysql56GTIDSet startSort "3E11FA47-71CA-11E1-9E33-C80AA9429562:1-5:6-10".toList =
        .ok (AList.insert exampleSID [⟨1, 5⟩, ⟨6, 10⟩] ∅) ∧
      parseMysql56GTIDSet startSort "3E11FA47-71CA-11E1-9E33-C80AA9429562:1-10".toList =
        .ok (AList.insert exampleSID [⟨1, 10⟩] ∅) ∧
      (∀ sid n, Mysql56GTIDSet.Denotes (AList.insert exampleSID [⟨1, 5⟩, ⟨6, 10⟩] ∅) sid n ↔
        Mysql56GTIDSet.Denotes (AList.insert exampleSID [⟨1, 10⟩] ∅) sid n) ∧
      Mysql56GTIDSet.contains (AList.insert exampleSID [⟨1, 5⟩, ⟨6, 10⟩] ∅)
        (AList.insert exampleSID [⟨1, 10⟩] ∅) = false ∧
      Mysql56GTIDSet.equal (AList.insert exampleSID [⟨1, 5⟩, ⟨6, 10⟩] ∅)
        (AList.insert exampleSID [⟨1, 10⟩] ∅) = false := by
  refine ⟨rfl, rfl, ?_, by decide, by decide⟩
  intro sid n
  by_cases same : sid = exampleSID
  · subst same
    simp only [Mysql56GTIDSet.Denotes, AList.lookup_insert, Option.getD_some, denotes_cons,
      denotes_nil, Interval.Mem, or_false]
    omega
  · simp only [Mysql56GTIDSet.Denotes, AList.lookup_insert_ne same, AList.lookup_empty]

end Vitess.Replication
