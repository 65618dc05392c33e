import Vitess.Go.Int64
import Vitess.Go.Slice
import Vitess.Data.LittleEndian

/-!
# The field readers and writers of MySQL packets

The helpers of `go/mysql/encoding.go` that read a field of a packet at `pos`:
each returns the value, the position after it and an `ok` flag, and fails with
`ok = false` when the field does not fit. A length-encoded integer is one byte
below `0xfb`, or a marker `0xfc`, `0xfd` or `0xfe` followed by 2, 3 or 8 bytes
little-endian; a length-encoded string is such a length and that many bytes.

A packet is its list of bytes and a Go `int` an integer. Positions are at most
`len(data)`, which no Go slice makes anywhere near `2^63`, so `pos + 1` up to
`pos + 9` are exact; a sum with a length read off the packet is not, and wraps
as Go's `int` does. The multi-byte reads of `readLenEncInt` and `readUint16/32/64`
take the bytes they combine as one slice and decode it little-endian, the value
Go builds from them with shifts and `|`.

A reader that gets through its bounds check reads exactly the bytes it checked
(`readByte_spec`, `readLittleEndian_spec`, `readNullString_spec`,
`readLenEncInt_spec`, `readBytes_spec`), and `readLenEncInt` reads back what
`writeLenEncInt` writes (`readLenEncInt_writeLenEncInt`). The length-encoded
strings are where this fails: `int(size)` of a length of `2^63` or more is
negative, `pos+s-1 >= len(data)` then passes, and the slice expression after it
panics (`readLenEncString_of_large`, `readLenEncStringAsBytesCopy_of_large`), and
`skipLenEncString` moves back (`skipLenEncString_of_large`).
-/

namespace Vitess.Mysql

open Vitess.Go

/-! ### Writing -/

/-- `lenEncIntSize`. -/
def lenEncIntSize (i : ℕ) : ℕ :=
  if i < 251 then 1 else if i < 2 ^ 16 then 3 else if i < 2 ^ 24 then 4 else 9

/-- The assignments `data[pos] = b0`, `data[pos+1] = b1`, ... in turn. -/
def writeBytesAt (data : List UInt8) (pos : ℤ) : List UInt8 → Except RuntimeError (List UInt8)
  | [] => .ok data
  | b :: bs => do
    let data ← setIndex data pos b
    writeBytesAt data (pos + 1) bs

/-- `writeLenEncInt`: the marker for the size, then `byte(i)`, `byte(i >> 8)`, ...,
the integer little-endian. -/
def writeLenEncInt (data : List UInt8) (pos : ℤ) (i : ℕ) : Except RuntimeError (List UInt8 × ℤ) :=
  if i < 251 then do
    let data ← writeBytesAt data pos [UInt8.ofNat i]
    return (data, pos + 1)
  else if i < 2 ^ 16 then do
    let data ← writeBytesAt data pos (0xfc :: LittleEndian.encode 2 i)
    return (data, pos + 3)
  else if i < 2 ^ 24 then do
    let data ← writeBytesAt data pos (0xfd :: LittleEndian.encode 3 i)
    return (data, pos + 4)
  else do
    let data ← writeBytesAt data pos (0xfe :: LittleEndian.encode 8 i)
    return (data, pos + 9)

/-! ### Reading -/

/-- `readByte`. -/
def readByte (data : List UInt8) (pos : ℤ) : Except RuntimeError (UInt8 × ℤ × Bool) :=
  if pos ≥ data.length then .ok (0, 0, false)
  else do
    let b ← index data pos
    return (b, pos + 1, true)

/-- `readBytes`. -/
def readBytes (data : List UInt8) (pos size : ℤ) : Except RuntimeError (List UInt8 × ℤ × Bool) :=
  if wrapInt64 (wrapInt64 (pos + size) - 1) ≥ data.length then .ok ([], 0, false)
  else do
    let bytes ← sliceExpr data pos (wrapInt64 (pos + size))
    return (bytes, wrapInt64 (pos + size), true)

/-- `readBytesCopy`: `readBytes` into a slice of its own. -/
def readBytesCopy (data : List UInt8) (pos size : ℤ) : Except RuntimeError (List UInt8 × ℤ × Bool) :=
  if wrapInt64 (wrapInt64 (pos + size) - 1) ≥ data.length then .ok ([], 0, false)
  else do
    let result ← makeSlice 0 size
    let bytes ← sliceExpr data pos (wrapInt64 (pos + size))
    return (copySlice result bytes, wrapInt64 (pos + size), true)

/-- `bytes.IndexByte`: the index of the first `c`, or `-1`. -/
def indexByte (s : List UInt8) (c : UInt8) : ℤ :=
  match s.idxOf? c with
  | some i => i
  | none => -1

/-- `readNullString`. -/
def readNullString (data : List UInt8) (pos : ℤ) : Except RuntimeError (List UInt8 × ℤ × Bool) := do
  let rest ← sliceExpr data pos data.length
  let e := indexByte rest 0
  if e = -1 then return ([], 0, false)
  let s ← sliceExpr data pos (pos + e)
  return (s, pos + e + 1, true)

/-- The reads of fixed-width integers: `width` bytes little-endian, after the check
`pos+width-1 >= len(data)`. -/
def readLittleEndian (width : ℕ) (data : List UInt8) (pos : ℤ) : Except RuntimeError (ℕ × ℤ × Bool) :=
  if pos + (width - 1 : ℕ) ≥ data.length then .ok (0, 0, false)
  else do
    let bytes ← sliceExpr data pos (pos + width)
    return (LittleEndian.decode bytes, pos + width, true)

/-- `readUint16`. -/
def readUint16 : List UInt8 → ℤ → Except RuntimeError (ℕ × ℤ × Bool) := readLittleEndian 2

/-- `readUint32`. -/
def readUint32 : List UInt8 → ℤ → Except RuntimeError (ℕ × ℤ × Bool) := readLittleEndian 4

/-- `readUint64`. -/
def readUint64 : List UInt8 → ℤ → Except RuntimeError (ℕ × ℤ × Bool) := readLittleEndian 8

/-- A branch of `readLenEncInt` after a marker: `width` bytes after it, after the
check `pos+width >= len(data)`. -/
def readAfterMarker (width : ℕ) (data : List UInt8) (pos : ℤ) : Except RuntimeError (ℕ × ℤ × Bool) :=
  if pos + width ≥ data.length then .ok (0, 0, false)
  else do
    let bytes ← sliceExpr data (pos + 1) (pos + 1 + width)
    return (LittleEndian.decode bytes, pos + 1 + width, true)

/-- `readLenEncInt`. -/
def readLenEncInt (data : List UInt8) (pos : ℤ) : Except RuntimeError (ℕ × ℤ × Bool) :=
  if pos ≥ data.length then .ok (0, 0, false)
  else do
    let first ← index data pos
    if first = 0xfc then readAfterMarker 2 data pos
    else if first = 0xfd then readAfterMarker 3 data pos
    else if first = 0xfe then readAfterMarker 8 data pos
    else return (first.toNat, pos + 1, true)

/-- `readLenEncString`: the length, then, with `s := int(size)`, the rest of the
body of `readBytes`. -/
def readLenEncString (data : List UInt8) (pos : ℤ) : Except RuntimeError (List UInt8 × ℤ × Bool) := do
  let (size, pos, ok) ← readLenEncInt data pos
  if !ok then return ([], 0, false)
  readBytes data pos (toInt64 size)

/-- `readLenEncStringAsBytes`: the same bytes as `readLenEncString`, as a slice. -/
def readLenEncStringAsBytes (data : List UInt8) (pos : ℤ) : Except RuntimeError (List UInt8 × ℤ × Bool) :=
  readLenEncString data pos

/-- `skipLenEncString`: the check of `readLenEncString` without the slice. -/
def skipLenEncString (data : List UInt8) (pos : ℤ) : Except RuntimeError (ℤ × Bool) := do
  let (size, pos, ok) ← readLenEncInt data pos
  if !ok then return (0, false)
  let s := toInt64 size
  if wrapInt64 (wrapInt64 (pos + s) - 1) ≥ data.length then return (0, false)
  return (wrapInt64 (pos + s), true)

/-- `readLenEncStringAsBytesCopy`: a new slice of `size` bytes, with `size` the
`uint64` read, and the bytes copied into it. -/
def readLenEncStringAsBytesCopy (data : List UInt8) (pos : ℤ) :
    Except RuntimeError (List UInt8 × ℤ × Bool) := do
  let (size, pos, ok) ← readLenEncInt data pos
  if !ok then return ([], 0, false)
  let s := toInt64 size
  if wrapInt64 (wrapInt64 (pos + s) - 1) ≥ data.length then return ([], 0, false)
  let result ← makeSlice 0 size
  let bytes ← sliceExpr data pos (wrapInt64 (pos + s))
  return (copySlice result bytes, wrapInt64 (pos + s), true)

/-! ### What a read takes -/

/-- A read from `pos` that ended at `next` took the bytes `data[pos:next]`. -/
def Consumed (data : List UInt8) (pos next : ℤ) (bytes : List UInt8) : Prop :=
  0 ≤ pos ∧ pos ≤ next ∧ next ≤ data.length ∧ bytes = (data.drop pos.toNat).take (next - pos).toNat

theorem consumed_of_within {data : List UInt8} {pos next : ℤ} (start : 0 ≤ pos) (ordered : pos ≤ next)
    (within : next ≤ data.length) : Consumed data pos next ((data.drop pos.toNat).take (next - pos).toNat) :=
  ⟨start, ordered, within, rfl⟩

theorem Consumed.length_eq {data bytes : List UInt8} {pos next : ℤ} (consumed : Consumed data pos next bytes) :
    (bytes.length : ℤ) = next - pos := by
  obtain ⟨start, ordered, within, rfl⟩ := consumed
  rw [List.length_take, List.length_drop]
  omega

/-- A byte in front of what a read took from the next position. -/
theorem Consumed.cons {data bytes : List UInt8} {pos next : ℤ} {first : UInt8} (start : 0 ≤ pos)
    (atPos : data[pos.toNat]? = some first) (consumed : Consumed data (pos + 1) next bytes) :
    Consumed data pos next (first :: bytes) := by
  obtain ⟨_, ordered, within, rfl⟩ := consumed
  have inRange : pos.toNat < data.length := (List.getElem?_eq_some_iff.mp atPos).1
  obtain ⟨_, isFirst⟩ := List.getElem?_eq_some_iff.mp atPos
  refine ⟨start, by omega, within, ?_⟩
  rw [List.drop_eq_getElem_cons inRange, isFirst, show (next - pos).toNat = (next - (pos + 1)).toNat + 1 by omega,
    List.take_succ_cons, show (pos + 1).toNat = pos.toNat + 1 by omega]

theorem Consumed.single {data : List UInt8} {pos : ℤ} {b : UInt8} (start : 0 ≤ pos)
    (atPos : data[pos.toNat]? = some b) : Consumed data pos (pos + 1) [b] := by
  have inRange : pos.toNat < data.length := (List.getElem?_eq_some_iff.mp atPos).1
  have last : Consumed data (pos + 1) (pos + 1) [] := ⟨by omega, le_rfl, by omega, by simp⟩
  exact last.cons start atPos

theorem index_of_nonneg (data : List UInt8) {pos : ℤ} (start : 0 ≤ pos) (inRange : pos < data.length) :
    data[pos.toNat]? = some data[pos.toNat] ∧ index data pos = .ok data[pos.toNat] := by
  have found : data[pos.toNat]? = some data[pos.toNat] := List.getElem?_eq_getElem (by omega)
  refine ⟨found, ?_⟩
  rw [← index_of_getElem? found, Int.toNat_of_nonneg start]

theorem readByte_spec (data : List UInt8) {pos : ℤ} (start : 0 ≤ pos) :
    ∃ b next ok, readByte data pos = .ok (b, next, ok) ∧ (ok = true → Consumed data pos next [b]) := by
  unfold readByte
  split
  · exact ⟨0, 0, false, rfl, nofun⟩
  · obtain ⟨found, read⟩ := index_of_nonneg data start (by omega)
    exact ⟨data[pos.toNat], pos + 1, true, by rw [read]; rfl, fun _ => Consumed.single start found⟩

/-- The reads of fixed-width integers take `width` bytes. -/
theorem readLittleEndian_spec (width : ℕ) (data : List UInt8) {pos : ℤ} (start : 0 ≤ pos) :
    ∃ value next ok, readLittleEndian width data pos = .ok (value, next, ok) ∧
      (ok = true → ∃ bytes, Consumed data pos next bytes ∧ bytes.length = width ∧
        value = LittleEndian.decode bytes) := by
  unfold readLittleEndian
  split
  · exact ⟨0, 0, false, rfl, nofun⟩
  · have within : pos + width ≤ data.length := by omega
    have consumed := consumed_of_within start (by omega) within
    rw [sliceExpr_of_within start (by omega) within]
    refine ⟨_, _, true, rfl, fun _ => ⟨_, consumed, ?_, rfl⟩⟩
    have := consumed.length_eq
    omega

theorem readAfterMarker_spec (width : ℕ) (data : List UInt8) {pos : ℤ} (start : 0 ≤ pos) :
    ∃ value next ok, readAfterMarker width data pos = .ok (value, next, ok) ∧
      (ok = true → ∃ bytes, Consumed data (pos + 1) next bytes ∧ bytes.length = width ∧
        value = LittleEndian.decode bytes) := by
  unfold readAfterMarker
  split
  · exact ⟨0, 0, false, rfl, nofun⟩
  · have within : pos + 1 + width ≤ data.length := by omega
    have consumed : Consumed data (pos + 1) (pos + 1 + width) _ :=
      consumed_of_within (by omega) (by omega) within
    rw [sliceExpr_of_within (by omega) (by omega) within]
    refine ⟨_, _, true, rfl, fun _ => ⟨_, consumed, ?_, rfl⟩⟩
    have := consumed.length_eq
    omega

/-- `readLenEncInt` takes one byte, or a marker and the bytes after it, and reads
a `uint64`. -/
theorem readLenEncInt_spec (data : List UInt8) {pos : ℤ} (start : 0 ≤ pos) :
    ∃ value next ok, readLenEncInt data pos = .ok (value, next, ok) ∧
      (ok = true → pos < next ∧ value < 2 ^ 64 ∧ ∃ bytes, Consumed data pos next bytes) := by
  unfold readLenEncInt
  split
  · exact ⟨0, 0, false, rfl, nofun⟩
  · obtain ⟨found, read⟩ := index_of_nonneg data start (by omega)
    rw [read]
    dsimp only [bind, Except.bind]
    -- after a marker, at most eight bytes
    have marker : ∀ width ≤ 8, ∃ value next ok, readAfterMarker width data pos = .ok (value, next, ok) ∧
        (ok = true → pos < next ∧ value < 2 ^ 64 ∧ ∃ bytes, Consumed data pos next bytes) := by
      intro width small
      obtain ⟨value, next, ok, result, spec⟩ := readAfterMarker_spec width data start
      refine ⟨value, next, ok, result, fun isOk => ?_⟩
      obtain ⟨bytes, consumed, length, rfl⟩ := spec isOk
      have := consumed.length_eq
      refine ⟨by omega, ?_, _, consumed.cons start found⟩
      calc LittleEndian.decode bytes
          _ < 256 ^ bytes.length := LittleEndian.decode_lt bytes
          _ ≤ 256 ^ 8 := Nat.pow_le_pow_right (by decide) (by omega)
          _ = 2 ^ 64 := rfl
    split
    · exact marker 2 (by decide)
    split
    · exact marker 3 (by decide)
    split
    · exact marker 8 le_rfl
    · have := data[pos.toNat].toNat_lt
      exact ⟨_, _, true, rfl, fun _ => ⟨by omega, by omega, _, Consumed.single start found⟩⟩

theorem readNullString_spec (data : List UInt8) {pos : ℤ} (start : 0 ≤ pos) (within : pos ≤ data.length) :
    ∃ s next ok, readNullString data pos = .ok (s, next, ok) ∧
      (ok = true → 0 ∉ s ∧ Consumed data pos next (s ++ [0])) := by
  have rest : sliceExpr data pos data.length = .ok (data.drop pos.toNat) := by
    rw [sliceExpr_of_within start within le_rfl, List.take_of_length_le (by simp; omega)]
  unfold readNullString
  rw [rest]
  dsimp only [bind, Except.bind]
  unfold indexByte
  cases found : (data.drop pos.toNat).idxOf? 0 with
  | none => exact ⟨[], 0, false, rfl, nofun⟩
  | some e =>
    -- the first zero is at `pos + e`
    obtain ⟨inRange, isZero, before⟩ := List.idxOf?_eq_some_iff.mp found
    have within' : pos + e + 1 ≤ data.length := by
      rw [List.length_drop] at inRange
      omega
    dsimp only
    rw [if_neg (by omega), sliceExpr_of_within start (by omega) (by omega)]
    refine ⟨_, _, true, rfl, fun _ => ⟨fun zero => ?_, start, by omega, within', ?_⟩⟩
    · obtain ⟨j, inTake, atJ⟩ := List.getElem_of_mem zero
      rw [List.getElem_take] at atJ
      rw [List.length_take] at inTake
      exact before j (by omega) atJ
    · rw [show (pos + e + 1 - pos).toNat = e + 1 by omega, show (pos + e - pos).toNat = e by omega,
        List.take_add_one, List.getElem?_eq_getElem inRange, isZero, Option.toList_some]

/-- A `readByte` that succeeds moves one byte on, inside the packet. -/
theorem readByte_ok {data : List UInt8} {pos next : ℤ} {b : UInt8}
    (read : readByte data pos = .ok (b, next, true)) : next = pos + 1 ∧ next ≤ data.length := by
  unfold readByte at read
  split at read
  · cases read
  · rename_i inRange
    cases found : index data pos with
    | error e => rw [found] at read; cases read
    | ok b' =>
      rw [found] at read
      cases read
      omega

/-- A `readBytes` that succeeds ends inside the packet and not before `pos`, whatever
the sum wrapped to: the slice expression checked it. -/
theorem readBytes_ok {data bytes : List UInt8} {pos size next : ℤ}
    (read : readBytes data pos size = .ok (bytes, next, true)) : pos ≤ next ∧ next ≤ data.length := by
  unfold readBytes at read
  split at read
  · cases read
  · cases sliced : sliceExpr data pos (wrapInt64 (pos + size)) with
    | error e => rw [sliced] at read; cases read
    | ok taken =>
      rw [sliced] at read
      cases read
      have := sliceExpr_ok sliced
      omega

/-- `readBytes` of a length that leaves the sum below `2^63` takes that many bytes. -/
theorem readBytes_spec (data : List UInt8) {pos size : ℤ} (start : 0 ≤ pos) (nonneg : 0 ≤ size)
    (fits : pos + size < 2 ^ 63) :
    ∃ bytes next ok, readBytes data pos size = .ok (bytes, next, ok) ∧
      (ok = true → next = pos + size ∧ Consumed data pos next bytes) := by
  have exact : wrapInt64 (pos + size) = pos + size := wrapInt64_of_inInt64 ⟨by omega, fits⟩
  have exact' : wrapInt64 (pos + size - 1) = pos + size - 1 := wrapInt64_of_inInt64 ⟨by omega, by omega⟩
  unfold readBytes
  rw [exact, exact']
  split
  · exact ⟨[], 0, false, rfl, nofun⟩
  · have within : pos + size ≤ data.length := by omega
    rw [sliceExpr_of_within start (by omega) within]
    exact ⟨_, _, true, rfl, fun _ => ⟨rfl, consumed_of_within start (by omega) within⟩⟩

/-- Where `make` does not panic, `readBytesCopy` reads what `readBytes` reads. -/
theorem readBytesCopy_eq_readBytes (data : List UInt8) {pos size : ℤ} (start : 0 ≤ pos) (nonneg : 0 ≤ size)
    (small : size ≤ maxAlloc) (fits : pos + size < 2 ^ 63) :
    readBytesCopy data pos size = readBytes data pos size := by
  have exact : wrapInt64 (pos + size) = pos + size := wrapInt64_of_inInt64 ⟨by omega, fits⟩
  have exact' : wrapInt64 (pos + size - 1) = pos + size - 1 := wrapInt64_of_inInt64 ⟨by omega, by omega⟩
  unfold readBytesCopy readBytes
  rw [exact, exact']
  split
  · rfl
  · have within : pos + size ≤ data.length := by omega
    have copied : ((data.drop pos.toNat).take (pos + size - pos).toNat).length = size.toNat := by
      rw [List.length_take, List.length_drop]
      omega
    rw [makeSlice, if_pos ⟨nonneg, small⟩, sliceExpr_of_within start (by omega) within]
    dsimp only [bind, Except.bind]
    rw [copySlice, List.length_replicate, ← copied, List.take_length, List.drop_replicate, Nat.sub_self,
      List.replicate_zero, List.append_nil]

/-- A fixed-width read with room for its bytes. -/
theorem readLittleEndian_of_room (width : ℕ) {data : List UInt8} {pos : ℤ} (start : 0 ≤ pos)
    (room : pos + width ≤ data.length) (wide : 0 < width) :
    readLittleEndian width data pos = .ok (LittleEndian.decode ((data.drop pos.toNat).take width), pos + width, true) := by
  rw [readLittleEndian, if_neg (by omega), sliceExpr_of_within start (by omega) room,
    show (pos + width - pos).toNat = width by omega]
  rfl

/-- A `readByte` inside the packet. -/
theorem readByte_of_room {data : List UInt8} {pos : ℤ} (start : 0 ≤ pos) (room : pos < data.length) :
    ∃ b, data[pos.toNat]? = some b ∧ readByte data pos = .ok (b, pos + 1, true) := by
  obtain ⟨found, read⟩ := index_of_nonneg data start room
  refine ⟨_, found, ?_⟩
  rw [readByte, if_neg (by omega), read]
  rfl

/-- `readNullString` past the end of the packet: `data[pos:]` panics. -/
theorem readNullString_of_past {data : List UInt8} {pos : ℤ} (past : data.length < pos) :
    readNullString data pos = .error .sliceBoundsOutOfRange := by
  rw [readNullString, sliceExpr_of_lt_low past]
  rfl

/-! ### Length-encoded strings -/

section LenEnc

variable {data : List UInt8} {pos next : ℤ} {size : ℕ}

/-- What a successful `readLenEncInt` leaves: a position after `pos`, in the
packet, and a `uint64`. -/
theorem readLenEncInt_ok (start : 0 ≤ pos) (read : readLenEncInt data pos = .ok (size, next, true)) :
    pos < next ∧ next ≤ data.length ∧ size < 2 ^ 64 := by
  obtain ⟨value, next', ok, result, spec⟩ := readLenEncInt_spec data start
  rw [read, Except.ok.injEq, Prod.mk.injEq, Prod.mk.injEq] at result
  obtain ⟨rfl, rfl, rfl⟩ := result
  obtain ⟨after, bound, bytes, consumed⟩ := spec rfl
  exact ⟨after, consumed.2.2.1, bound⟩

/-- A length that leaves the sum below `2^63`: `readLenEncString` reads that many
bytes after it. -/
theorem readLenEncString_of_fits (start : 0 ≤ pos) (read : readLenEncInt data pos = .ok (size, next, true))
    (fits : next + size < 2 ^ 63) : readLenEncString data pos = readBytes data next size := by
  have after := (readLenEncInt_ok start read).1
  have exact : toInt64 size = size := wrapInt64_of_inInt64 ⟨by omega, by omega⟩
  rw [readLenEncString, read]
  dsimp only [bind, Except.bind]
  rw [exact]
  rfl

/-- `int(size)` of a length of `2^63` or more: a negative `int`. -/
theorem toInt64_of_large (large : 2 ^ 63 ≤ size) (uint : size < 2 ^ 64) :
    toInt64 size = size - 2 ^ 64 := by
  unfold toInt64 wrapInt64
  omega

/-- With a length of `2^63` or more, `pos+s-1 >= len(data)` passes for the negative
`s := int(size)`, so the slice `data[pos:pos+s]` ends before it starts: a panic. -/
theorem readLenEncString_of_large (start : 0 ≤ pos) (short : data.length < 2 ^ 63)
    (read : readLenEncInt data pos = .ok (size, next, true)) (large : 2 ^ 63 ≤ size) :
    readLenEncString data pos = .error .sliceBoundsOutOfRange := by
  obtain ⟨after, within, uint⟩ := readLenEncInt_ok start read
  have negative := toInt64_of_large large uint
  have exact : wrapInt64 (next + toInt64 size) = next + toInt64 size :=
    wrapInt64_of_inInt64 ⟨by omega, by omega⟩
  have exact' : wrapInt64 (next + toInt64 size - 1) = next + toInt64 size - 1 :=
    wrapInt64_of_inInt64 ⟨by omega, by omega⟩
  have passes : ¬ (next + toInt64 size - 1 ≥ (data.length : ℤ)) := by omega
  rw [readLenEncString, read]
  dsimp only [bind, Except.bind]
  rw [readBytes, exact, exact', if_neg passes, sliceExpr_of_lt_low (by omega)]
  rfl

/-- `readLenEncStringAsBytesCopy` with such a length asks `make` for `2^63` bytes
or more: a panic. -/
theorem readLenEncStringAsBytesCopy_of_large (start : 0 ≤ pos) (short : data.length < 2 ^ 63)
    (read : readLenEncInt data pos = .ok (size, next, true)) (large : 2 ^ 63 ≤ size) :
    readLenEncStringAsBytesCopy data pos = .error .makeSliceLenOutOfRange := by
  obtain ⟨after, within, uint⟩ := readLenEncInt_ok start read
  have negative := toInt64_of_large large uint
  have exact : wrapInt64 (next + toInt64 size) = next + toInt64 size :=
    wrapInt64_of_inInt64 ⟨by omega, by omega⟩
  have exact' : wrapInt64 (next + toInt64 size - 1) = next + toInt64 size - 1 :=
    wrapInt64_of_inInt64 ⟨by omega, by omega⟩
  have tooLarge : ¬ (0 ≤ (size : ℤ) ∧ (size : ℤ) ≤ maxAlloc) := by
    rw [maxAlloc]
    omega
  have passes : ¬ (next + toInt64 size - 1 ≥ (data.length : ℤ)) := by omega
  rw [readLenEncStringAsBytesCopy, read]
  dsimp only [bind, Except.bind]
  rw [exact, exact', if_neg passes, makeSlice, if_neg tooLarge]
  rfl

/-- `skipLenEncString` with such a length goes back: the position it returns is
before the end of the length it read. -/
theorem skipLenEncString_of_large (start : 0 ≤ pos) (short : data.length < 2 ^ 63)
    (read : readLenEncInt data pos = .ok (size, next, true)) (large : 2 ^ 63 ≤ size) :
    skipLenEncString data pos = .ok (next + toInt64 size, true) ∧ next + toInt64 size < next := by
  obtain ⟨after, within, uint⟩ := readLenEncInt_ok start read
  have negative := toInt64_of_large large uint
  have exact : wrapInt64 (next + toInt64 size) = next + toInt64 size :=
    wrapInt64_of_inInt64 ⟨by omega, by omega⟩
  have exact' : wrapInt64 (next + toInt64 size - 1) = next + toInt64 size - 1 :=
    wrapInt64_of_inInt64 ⟨by omega, by omega⟩
  have passes : ¬ (next + toInt64 size - 1 ≥ (data.length : ℤ)) := by omega
  refine ⟨?_, by omega⟩
  rw [skipLenEncString, read]
  dsimp only [bind, Except.bind]
  rw [exact, exact', if_neg passes]
  rfl

/-- `readBytesCopy` of a negative size whose sum with `pos` does not wrap: the check
passes and `make` panics. -/
theorem readBytesCopy_of_negative (data : List UInt8) {pos size : ℤ} (within : pos ≤ data.length)
    (short : pos < 2 ^ 63) (negative : size < 0) (low : -2 ^ 63 < pos + size) :
    readBytesCopy data pos size = .error .makeSliceLenOutOfRange := by
  have exact : wrapInt64 (pos + size) = pos + size := wrapInt64_of_inInt64 ⟨by omega, by omega⟩
  have exact' : wrapInt64 (pos + size - 1) = pos + size - 1 := wrapInt64_of_inInt64 ⟨by omega, by omega⟩
  have passes : ¬ (pos + size - 1 ≥ (data.length : ℤ)) := by omega
  rw [readBytesCopy, exact, exact', if_neg passes, makeSlice, if_neg (by omega)]
  rfl

end LenEnc

/-! ### Reading back what was written -/

/-- Bytes that fit at `pos` land there, between the bytes before and after them. -/
theorem writeBytesAt_of_fits (data : List UInt8) (pos : ℕ) (bytes : List UInt8)
    (room : pos + bytes.length ≤ data.length) :
    writeBytesAt data pos bytes = .ok (data.take pos ++ bytes ++ data.drop (pos + bytes.length)) := by
  induction bytes generalizing data pos with
  | nil => simp [writeBytesAt]
  | cons b bs ih =>
    rw [List.length_cons] at room
    have inRange : pos < data.length := by omega
    have set : data.set pos b = data.take pos ++ b :: data.drop (pos + 1) := by
      rw [List.set_eq_take_append_cons_drop, if_pos inRange]
    rw [writeBytesAt, setIndex, if_pos ⟨by omega, by omega⟩]
    dsimp only [bind, Except.bind]
    rw [Int.toNat_natCast, show (pos : ℤ) + 1 = ((pos + 1 : ℕ) : ℤ) by push_cast; rfl,
      ih _ _ (by rw [List.length_set]; omega), List.drop_set_of_lt (by omega), set]
    simp [List.take_append, List.take_take, Nat.min_eq_left inRange.le, Nat.add_assoc, Nat.add_comm 1]

theorem index_at_length (pre rest : List UInt8) (b : UInt8) :
    index (pre ++ b :: rest) pre.length = .ok b :=
  index_of_getElem? (by simp)

/-- After a marker, the `width` bytes of a value below `256^width` read back as it. -/
theorem readAfterMarker_encode {pre : List UInt8} {pos : ℕ} (before : pre.length = pos) (post : List UInt8)
    (marker : UInt8) {width i : ℕ} (small : i < 256 ^ width) :
    readAfterMarker width (pre ++ marker :: (LittleEndian.encode width i ++ post)) pos =
      .ok (i, pos + (1 + width), true) := by
  subst before
  have length : (pre ++ marker :: (LittleEndian.encode width i ++ post)).length =
      pre.length + 1 + width + post.length := by
    simp only [List.length_append, List.length_cons, LittleEndian.length_encode]
    omega
  rw [readAfterMarker, if_neg (by omega), sliceExpr_of_within (by omega) (by omega) (by omega)]
  dsimp only [bind, Except.bind]
  have bytes : ((pre ++ marker :: (LittleEndian.encode width i ++ post)).drop (pre.length + 1)).take width =
      LittleEndian.encode width i := by
    rw [List.drop_append, List.drop_eq_nil_of_le (by omega), List.nil_append,
      Nat.add_sub_cancel_left, List.drop_succ_cons, List.drop_zero,
      List.take_left' (LittleEndian.length_encode width i)]
  rw [show ((pre.length : ℤ) + 1).toNat = pre.length + 1 by omega,
    show ((pre.length : ℤ) + 1 + width - (pre.length + 1)).toNat = width by omega, bytes,
    LittleEndian.decode_encode, Nat.mod_eq_of_lt small, Int.add_assoc]
  rfl

/-- The byte at `pos` decides how `readLenEncInt` goes on. -/
theorem readLenEncInt_at {pre : List UInt8} {pos : ℕ} (before : pre.length = pos) (rest : List UInt8)
    (first : UInt8) :
    readLenEncInt (pre ++ first :: rest) pos =
      if first = 0xfc then readAfterMarker 2 (pre ++ first :: rest) pos
      else if first = 0xfd then readAfterMarker 3 (pre ++ first :: rest) pos
      else if first = 0xfe then readAfterMarker 8 (pre ++ first :: rest) pos
      else .ok (first.toNat, pos + 1, true) := by
  subst before
  have inRange : ¬ ((pre.length : ℤ) ≥ (pre ++ first :: rest).length) := by
    rw [List.length_append, List.length_cons]
    omega
  rw [readLenEncInt, if_neg inRange, index_at_length]
  rfl

/-- `readLenEncInt` reads back every `uint64` that `writeLenEncInt` writes, and ends
where the write ended. -/
theorem readLenEncInt_writeLenEncInt (data : List UInt8) {pos i : ℕ} (uint : i < 2 ^ 64)
    (room : pos + lenEncIntSize i ≤ data.length) :
    ∃ written, writeLenEncInt data pos i = .ok (written, pos + lenEncIntSize i) ∧
      readLenEncInt written pos = .ok (i, pos + lenEncIntSize i, true) := by
  have before : (data.take pos).length = pos := by
    rw [List.length_take]
    unfold lenEncIntSize at room
    split_ifs at room <;> omega
  unfold writeLenEncInt lenEncIntSize at *
  split_ifs at * with one three four
  · rw [writeBytesAt_of_fits data pos _ (by simpa using room)]
    refine ⟨_, rfl, ?_⟩
    have value : (UInt8.ofNat i).toNat = i := by
      rw [UInt8.toNat_ofNat']
      omega
    -- a byte below `251` is no marker
    have markers : ∀ m : UInt8, 251 ≤ m.toNat → UInt8.ofNat i ≠ m := by
      rintro m marker rfl
      omega
    rw [List.append_assoc, List.singleton_append, readLenEncInt_at before,
      if_neg (markers 0xfc (by decide)), if_neg (markers 0xfd (by decide)), if_neg (markers 0xfe (by decide)),
      value]
    rfl
  · rw [writeBytesAt_of_fits data pos _ (by simpa using room)]
    refine ⟨_, rfl, ?_⟩
    rw [List.append_assoc, List.cons_append, readLenEncInt_at before, if_pos rfl]
    exact readAfterMarker_encode before _ _ (by omega)
  · rw [writeBytesAt_of_fits data pos _ (by simpa using room)]
    refine ⟨_, rfl, ?_⟩
    rw [List.append_assoc, List.cons_append, readLenEncInt_at before, if_neg (by decide), if_pos rfl]
    exact readAfterMarker_encode before _ _ (by omega)
  · rw [writeBytesAt_of_fits data pos _ (by simpa using room)]
    refine ⟨_, rfl, ?_⟩
    rw [List.append_assoc, List.cons_append, readLenEncInt_at before, if_neg (by decide), if_neg (by decide),
      if_pos rfl]
    exact readAfterMarker_encode before _ _ (by omega)

end Vitess.Mysql
