import Vitess.Replication.Mysql56Text
import Vitess.Data.LittleEndian
import Vitess.Go.Int64

/-!
# The binary SID block

`Mysql56GTIDSet.SIDBlock` and `NewMysql56GTIDSetFromSIDBlock` of
`go/mysql/replication/mysql56_gtid_set.go`: the binary form of a MySQL 5.6 GTID
set that `COM_BINLOG_DUMP_GTID` carries. The block holds the number of SIDs, then
for each SID in order its 16 bytes, its number of intervals and each interval's
start and end, as little-endian 64-bit integers. The end is written plus one, as
MySQL keeps it, and the reader subtracts the one again.

The reader appends each interval to those already read for its SID, so a SID
with no interval is never stored; a normalized set, whose lists are all
nonempty, is read back with the same intervals at every SID
(`newMysql56GTIDSetFromSIDBlock_sidBlock`).
-/

namespace Vitess.Replication

open Vitess.Go Vitess.IntervalList

/-! ### Writing -/

/-- `binary.Write` of a `uint64`, little-endian. -/
def putUint64 (n : UInt64) : List UInt8 :=
  LittleEndian.encode 8 n.toNat

/-- `binary.Write` of an `int64`: the bytes of its two's complement. -/
def putInt64 (z : ℤ) : List UInt8 :=
  LittleEndian.encode 8 (toUint64 z)

/-- What `SIDBlock` writes for one interval: its start, and its end plus one in
`int64` arithmetic. -/
def intervalBlock (iv : Interval) : List UInt8 :=
  putInt64 iv.start ++ putInt64 (wrapInt64 (iv.stop + 1))

/-- What `SIDBlock` writes for one SID: its bytes, the number of its intervals and
the intervals. -/
def sidEntryBlock (sid : SID) (intervals : List Interval) : List UInt8 :=
  sid.bytes ++ putUint64 (UInt64.ofNat intervals.length) ++ intervals.flatMap intervalBlock

/-- `Mysql56GTIDSet.SIDBlock`: the number of SIDs, then each SID in the order of
`SIDs()`. -/
def Mysql56GTIDSet.sidBlock (set : Mysql56GTIDSet) : List UInt8 :=
  putUint64 (UInt64.ofNat set.entries.length) ++
    set.sids.flatMap fun sid => sidEntryBlock sid ((set.lookup sid).getD [])

/-! ### Reading -/

/-- The errors of `NewMysql56GTIDSetFromSIDBlock`, with the indices their
messages quote. -/
inductive SIDBlockError where
  /-- `cannot read nSIDs`. -/
  | cannotReadNSIDs
  /-- `cannot read SID %v: %v %v`, with the count of bytes there were. -/
  | cannotReadSID (i count : ℕ)
  /-- `cannot read nIntervals %v`. -/
  | cannotReadNIntervals (i : ℕ)
  /-- `cannot read start %v/%v`. -/
  | cannotReadStart (i j : ℕ)
  /-- `cannot read end %v/%v`. -/
  | cannotReadEnd (i j : ℕ)
  deriving DecidableEq, Repr

/-- `binary.Read` of a little-endian `uint64`: eight bytes, or nothing when fewer
remain. -/
def readUint64 (buf : List UInt8) : Option (UInt64 × List UInt8) :=
  (LittleEndian.read 8 buf).map fun read => (UInt64.ofNat read.1, read.2)

/-- `buf.Read(sid[:])`: sixteen bytes, or the number of bytes there were when
fewer remain. -/
def readSID (buf : List UInt8) : Except ℕ (SID × List UInt8) :=
  if full : 16 ≤ buf.length then
    .ok (⟨buf.take 16, by rw [List.length_take]; omega⟩, buf.drop 16)
  else .error buf.length

/-- `set[sid] = append(set[sid], iv)`. -/
def appendInterval (set : Mysql56GTIDSet) (sid : SID) (iv : Interval) : Mysql56GTIDSet :=
  set.insert sid ((set.lookup sid).getD [] ++ [iv])

/-- The inner loop of `NewMysql56GTIDSetFromSIDBlock`: `count` more intervals of
the SID number `i`, from the interval number `j` on. The end is read as a
`uint64` and one is subtracted in `uint64` arithmetic. -/
def readIntervals (i : ℕ) (sid : SID) :
    ℕ → ℕ → List UInt8 → Mysql56GTIDSet → Except SIDBlockError (List UInt8 × Mysql56GTIDSet)
  | 0, _, buf, set => .ok (buf, set)
  | count + 1, j, buf, set =>
    match readUint64 buf with
    | none => .error (.cannotReadStart i j)
    | some (start, buf) =>
      match readUint64 buf with
      | none => .error (.cannotReadEnd i j)
      | some (stop, buf) =>
        readIntervals i sid count (j + 1) buf
          (appendInterval set sid ⟨toInt64 start.toNat, toInt64 (stop - 1).toNat⟩)

/-- The outer loop: `count` more SIDs, from the SID number `i` on. -/
def readSIDs : ℕ → ℕ → List UInt8 → Mysql56GTIDSet → Except SIDBlockError Mysql56GTIDSet
  | 0, _, _, set => .ok set
  | count + 1, i, buf, set =>
    match readSID buf with
    | .error c => .error (.cannotReadSID i c)
    | .ok (sid, buf) =>
      match readUint64 buf with
      | none => .error (.cannotReadNIntervals i)
      | some (nIntervals, buf) =>
        readIntervals i sid nIntervals.toNat 0 buf set >>= fun read =>
          readSIDs count (i + 1) read.1 read.2

/-- `NewMysql56GTIDSetFromSIDBlock`; bytes after the last interval are ignored. -/
def newMysql56GTIDSetFromSIDBlock (data : List UInt8) : Except SIDBlockError Mysql56GTIDSet :=
  match readUint64 data with
  | none => .error .cannotReadNSIDs
  | some (nSIDs, buf) => readSIDs nSIDs.toNat 0 buf ∅

/-! ### Reading back what was written -/

theorem readUint64_putUint64 (n : UInt64) (rest : List UInt8) :
    readUint64 (putUint64 n ++ rest) = some (n, rest) := by
  simp [readUint64, putUint64, LittleEndian.read_encode_append]

theorem readUint64_putInt64 (z : ℤ) (rest : List UInt8) :
    readUint64 (putInt64 z ++ rest) = some (UInt64.ofNat (toUint64 z), rest) := by
  have small : toUint64 z % 256 ^ 8 = toUint64 z := Nat.mod_eq_of_lt (by simpa using toUint64_lt z)
  rw [readUint64, putInt64, LittleEndian.read_encode_append, small]
  rfl

theorem readSID_append (sid : SID) (rest : List UInt8) :
    readSID (sid.bytes ++ rest) = .ok (sid, rest) := by
  have full : 16 ≤ (sid.bytes ++ rest).length := by simp [sid.length_eq]
  rw [readSID, dif_pos full]
  congr
  · exact List.take_left' sid.length_eq
  · exact List.drop_left' sid.length_eq

/-- The reader recovers an interval of `int64` bounds: its start converted to
`uint64` and back, and its end plus one, converted, minus one. -/
theorem readBack_interval {iv : Interval} (startRange : InInt64 iv.start)
    (stopRange : InInt64 iv.stop) :
    (⟨toInt64 (UInt64.ofNat (toUint64 iv.start)).toNat,
      toInt64 (UInt64.ofNat (toUint64 (wrapInt64 (iv.stop + 1))) - 1).toNat⟩ : Interval) = iv := by
  have start : (UInt64.ofNat (toUint64 iv.start)).toNat = toUint64 iv.start := by
    rw [UInt64.toNat_ofNat']
    exact Nat.mod_eq_of_lt (toUint64_lt _)
  have stop : (UInt64.ofNat (toUint64 (wrapInt64 (iv.stop + 1))) - 1).toNat = toUint64 iv.stop := by
    rw [toUint64_wrapInt64, UInt64.toNat_sub, UInt64.toNat_ofNat']
    unfold toUint64
    simp only [UInt64.toNat_one]
    omega
  rw [start, stop, toInt64_toUint64 startRange, toInt64_toUint64 stopRange]

/-- The inner loop reads the intervals back from their blocks and appends them one
by one, whatever follows. -/
theorem readIntervals_intervalBlocks (i : ℕ) (sid : SID) (rest : List UInt8) :
    ∀ (intervals : List Interval) (j : ℕ) (set : Mysql56GTIDSet),
      (∀ iv ∈ intervals, InInt64 iv.start ∧ InInt64 iv.stop) →
      readIntervals i sid intervals.length j (intervals.flatMap intervalBlock ++ rest) set =
        .ok (rest, intervals.foldl (fun set iv => appendInterval set sid iv) set)
  | [], _, _, _ => rfl
  | iv :: more, j, set, inRange => by
    obtain ⟨startRange, stopRange⟩ := inRange iv List.mem_cons_self
    rw [List.length_cons, List.flatMap_cons, intervalBlock, List.append_assoc, List.append_assoc,
      readIntervals, readUint64_putInt64]
    dsimp only
    rw [readUint64_putInt64]
    dsimp only
    rw [readBack_interval startRange stopRange, List.foldl_cons]
    exact readIntervals_intervalBlocks i sid rest more (j + 1) _
      fun other member => inRange other (List.mem_cons_of_mem iv member)

/-- Appending a nonempty list interval by interval stores it after what the SID had. -/
theorem foldl_appendInterval (sid : SID) :
    ∀ (intervals : List Interval) (set : Mysql56GTIDSet), intervals ≠ [] →
      intervals.foldl (fun set iv => appendInterval set sid iv) set =
        set.insert sid ((set.lookup sid).getD [] ++ intervals)
  | [], _, empty => absurd rfl empty
  | [_], _, _ => rfl
  | iv :: next :: more, set, _ => by
    rw [List.foldl_cons, foldl_appendInterval sid (next :: more) _ (List.cons_ne_nil _ _),
      appendInterval, AList.lookup_insert, Option.getD_some, AList.insert_insert,
      List.append_assoc, List.singleton_append]

/-- The outer loop reads the SIDs back from their blocks, each with its intervals
appended, whatever follows. -/
theorem readSIDs_sidEntryBlocks (intervalsOf : SID → List Interval) (rest : List UInt8) :
    ∀ (sids : List SID) (i : ℕ) (set : Mysql56GTIDSet),
      (∀ sid ∈ sids, (intervalsOf sid).length < 2 ^ 64 ∧
        ∀ iv ∈ intervalsOf sid, InInt64 iv.start ∧ InInt64 iv.stop) →
      readSIDs sids.length i (sids.flatMap (fun sid => sidEntryBlock sid (intervalsOf sid)) ++ rest)
          set =
        .ok (sids.foldl (fun set sid =>
          (intervalsOf sid).foldl (fun set iv => appendInterval set sid iv) set) set)
  | [], _, _, _ => rfl
  | sid :: more, i, set, valid => by
    obtain ⟨countFits, inRange⟩ := valid sid List.mem_cons_self
    have count : (UInt64.ofNat (intervalsOf sid).length).toNat = (intervalsOf sid).length := by
      rw [UInt64.toNat_ofNat']
      exact Nat.mod_eq_of_lt countFits
    rw [List.length_cons, List.flatMap_cons, sidEntryBlock, List.append_assoc, List.append_assoc,
      List.append_assoc, readSIDs, readSID_append]
    dsimp only
    rw [readUint64_putUint64]
    dsimp only
    rw [count, readIntervals_intervalBlocks i sid _ _ 0 set inRange, List.foldl_cons]
    exact readSIDs_sidEntryBlocks intervalsOf rest more (i + 1) _
      fun other member => valid other (List.mem_cons_of_mem sid member)

/-- `NewMysql56GTIDSetFromSIDBlock` reads a normalized set back from its
`SIDBlock`, with the same intervals at every SID. The number of SIDs is a Go
`int`, as `len` returns it. -/
theorem newMysql56GTIDSetFromSIDBlock_sidBlock {set : Mysql56GTIDSet} (normalized : set.Normalized)
    (goLen : set.entries.length < 2 ^ 63) :
    ∃ parsed, newMysql56GTIDSetFromSIDBlock set.sidBlock = .ok parsed ∧
      ∀ sid, parsed.lookup sid = set.lookup sid := by
  have sidsPerm : set.sids.Perm set.keys := List.mergeSort_perm _ _
  have present : ∀ sid ∈ set.sids, ∃ intervals, set.lookup sid = some intervals := fun sid member =>
    Option.isSome_iff_exists.mp (AList.lookup_isSome.mpr (sidsPerm.subset member))
  -- a normalized list has fewer than 2^63 intervals, each of int64 bounds
  have valid : ∀ sid ∈ set.sids, ((set.lookup sid).getD []).length < 2 ^ 64 ∧
      ∀ iv ∈ (set.lookup sid).getD [], InInt64 iv.start ∧ InInt64 iv.stop := by
    intro sid member
    obtain ⟨intervals, found⟩ := present sid member
    obtain ⟨-, ordered, bounded⟩ := normalized.lookup found
    rw [found, Option.getD_some]
    have few := ordered.length_le bounded
    refine ⟨by omega, fun iv isMember => ?_⟩
    have nonempty := ordered.1 iv isMember
    unfold Interval.Nonempty at nonempty
    have := bounded iv isMember
    unfold InInt64
    omega
  have count : (UInt64.ofNat set.entries.length).toNat = set.sids.length := by
    rw [UInt64.toNat_ofNat', Nat.mod_eq_of_lt (by omega), sidsPerm.length_eq]
    simp [AList.keys, List.keys]
  -- the reader stores each SID's list, read interval by interval
  have read := readSIDs_sidEntryBlocks (fun sid => (set.lookup sid).getD []) [] set.sids 0 ∅ valid
  rw [List.append_nil] at read
  obtain ⟨parsed, folded, same⟩ := KeyedFold.foldlM_rebuild set sidsPerm
    (fun acc sid => (pure (((set.lookup sid).getD []).foldl
      (fun acc iv => appendInterval acc sid iv) acc) : Except SIDBlockError Mysql56GTIDSet))
    (fun sid => (set.lookup sid).getD [])
    (fun sid member => by
      obtain ⟨intervals, found⟩ := present sid member
      rw [found, Option.getD_some])
    (fun sid member acc fresh => by
      obtain ⟨intervals, found⟩ := present sid member
      obtain ⟨nonempty, -⟩ := normalized.lookup found
      rw [found, Option.getD_some, foldl_appendInterval sid intervals acc nonempty, fresh,
        Option.getD_none, List.nil_append]
      rfl)
  rw [List.foldlM_pure] at folded
  refine ⟨parsed, ?_, same⟩
  rw [newMysql56GTIDSetFromSIDBlock, Mysql56GTIDSet.sidBlock, readUint64_putUint64]
  dsimp only
  rw [count, read]
  exact folded

end Vitess.Replication
