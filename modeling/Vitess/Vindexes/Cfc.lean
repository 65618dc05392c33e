import Vitess.Crypto.Md5
import Vitess.Key.Span
import Vitess.Key.Destination

/-!
# The `cfc` vindex

The Concatenated Fixed-width Composite vindex of
`go/vt/vtgate/vindexes/cfc.go`. A key is the concatenation of components whose
boundaries are the `offsets`; with a hash, its keyspace id is the concatenation
of the components' hashes, each cut to the component's length. In a `LIKE`,
the prefix vindex maps the pattern's literal prefix to the key range of all ids
that start with the prefix's keyspace id (`NewKeyRangeFromPrefix`).

The vindex's documentation says that only the part of a prefix that aligns with
the component boundaries takes part in the key range. `computeKsid` in prefix
mode stops at the first offset past the prefix, but once the prefix reaches
past the last offset it also hashes the partial last component, whose hash is no
prefix of the full component's hash.

`Map` and the prefix `Map` are modelled from the ids' bytes, after `ToBytes`.
-/

namespace Vitess.Vindexes

open Vitess.Key

/-- `vMD5Hash`: the MD5 digest. -/
def vMD5Hash (source : List UInt8) : List UInt8 :=
  Vitess.Crypto.Md5.sum source

/-- `md5hash`: the digest cut to the length of its input. -/
def md5hash (input : List UInt8) : List UInt8 :=
  let out := vMD5Hash input
  if input.length < out.length then out.take input.length else out

/-- The fields of `cfcCommon` that mapping reads. -/
structure CfcCommon where
  name : String
  hash : Option (List UInt8 → List UInt8)
  offsets : List ℕ

/-- The error of `computeKsid`:
"insufficient size for cfc vindex %s. need %d, got %d". -/
structure InsufficientSize where
  name : String
  need : ℕ
  got : ℕ
  deriving DecidableEq, Repr

/-- The loop of `computeKsid` from the component that starts at `prev`: each
component `v[prev:offset]` hashed, an early return at the first offset past the
end of `v`, and after the last offset the rest of `v` hashed if there is any. -/
def hashComponents (hash : List UInt8 → List UInt8) (v : List UInt8) :
    ℕ → List ℕ → List UInt8
  | prev, [] => if prev < v.length then hash (v.drop prev) else []
  | prev, offset :: rest =>
    if v.length < offset then []
    else hash ((v.drop prev).take (offset - prev)) ++ hashComponents hash v offset rest

/-- `cfcCommon.computeKsid`: without a hash the key is its own keyspace id; a
full key must reach the last offset. -/
def computeKsid (vind : CfcCommon) (v : List UInt8) (isPrefix : Bool) :
    Except InsufficientSize (List UInt8) :=
  match vind.hash with
  | none => .ok v
  | some hash =>
    let last := vind.offsets.getLastD 0
    if !isPrefix && v.length < last then .error ⟨vind.name, last, v.length⟩
    else .ok (hashComponents hash v 0 vind.offsets)

/-- The loop of `addOne` over the reversed bytes: the last byte below 255 goes
up by one and the 255s after it become 0; `true` when every byte was 255. -/
def addOneReversed : List UInt8 → List UInt8 × Bool
  | [] => ([], true)
  | b :: rest =>
    if b < 255 then ((b + 1) :: rest, false)
    else
      let (incremented, overflow) := addOneReversed rest
      (0 :: incremented, overflow)

/-- `addOne`: the id one past the bytes, nil when they are all 255. -/
def addOne (value : List UInt8) : List UInt8 :=
  let (incremented, overflow) := addOneReversed value.reverse
  if overflow then [] else incremented.reverse

/-- `NewKeyRangeFromPrefix`: `[begin, begin + 1)`, or all shards for no prefix. -/
def newKeyRangeFromPrefix (begin : List UInt8) : Destination :=
  if begin.isEmpty then .allShards else .keyRange ⟨begin, addOne begin⟩

/-- `sqltypes.SQLDecodeMap`: the byte an escaped character stands for. -/
def sqlDecode (c : UInt8) : Option UInt8 :=
  if c = 0x30 then some 0
  else if c = 0x27 then some 0x27
  else if c = 0x22 then some 0x22
  else if c = 0x62 then some 0x08
  else if c = 0x6e then some 0x0a
  else if c = 0x72 then some 0x0d
  else if c = 0x74 then some 0x09
  else if c = 0x5a then some 26
  else if c = 0x5c then some 0x5c
  else none

/-- `findPrefix`: the literal prefix of a `LIKE` pattern, up to the first
unescaped `%` or `_`, with escapes decoded. -/
def findPrefix : List UInt8 → List UInt8
  | [] => []
  | c :: rest =>
    if c = 0x25 ∨ c = 0x5f then []
    else if c = 0x5c then
      match rest with
      | [] => [c]
      | e :: after => (sqlDecode e).getD e :: findPrefix after
    else c :: findPrefix rest

namespace CfcCommon

variable (vind : CfcCommon)

/-- `CFC.Map` over the ids' bytes. -/
def map : List (List UInt8) → Except InsufficientSize (List Destination)
  | [] => .ok []
  | id :: ids =>
    match computeKsid vind id false with
    | .error err => .error err
    | .ok v =>
      match map ids with
      | .error err => .error err
      | .ok out => .ok (.keyspaceID v :: out)

/-- `prefixCFC.Map` over the `LIKE` patterns' bytes. -/
def prefixMap : List (List UInt8) → Except InsufficientSize (List Destination)
  | [] => .ok []
  | value :: values =>
    match computeKsid vind (findPrefix value) true with
    | .error err => .error err
    | .ok begin =>
      match prefixMap values with
      | .error err => .error err
      | .ok out => .ok (newKeyRangeFromPrefix begin :: out)

end CfcCommon

/-- A CFC vindex hashing with MD5 at offsets `[2]`. -/
def md5AtTwo : CfcCommon :=
  ⟨"cfc", some md5hash, [2]⟩

/-- The row key "abcd" and the pattern `LIKE 'abc%'` under `md5AtTwo`: the row's
keyspace id is `md5("ab")[:2] ++ md5("cd")[:2]`, but the pattern's prefix "abc"
hashes its partial last component "c" to `md5("c")[:1]`, and the key range that
`prefixCFC.Map` returns misses the row. -/
theorem partial_last_component_misses_row :
    md5AtTwo.map [[0x61, 0x62, 0x63, 0x64]] = .ok [.keyspaceID [0x18, 0x7e, 0x68, 0x65]] ∧
      md5AtTwo.prefixMap [[0x61, 0x62, 0x63, 0x25]] =
        .ok [.keyRange ⟨[0x18, 0x7e, 0x4a], [0x18, 0x7e, 0x4b]⟩] ∧
      keyRangeContains (some ⟨[0x18, 0x7e, 0x4a], [0x18, 0x7e, 0x4b]⟩)
        [0x18, 0x7e, 0x68, 0x65] = false := by
  refine ⟨?_, ?_, by decide⟩
  · decide +kernel
  · decide +kernel

end Vitess.Vindexes
