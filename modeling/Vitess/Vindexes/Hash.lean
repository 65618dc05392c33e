import Vitess.Sqltypes.Value
import Vitess.Mysql.Fastparse
import Vitess.Go.Strconv
import Vitess.Key.Destination

/-!
# The `hash` vindex

`Hash.Map`, `Hash.Verify` and `Hash.Hash` of `go/vt/vtgate/vindexes/hash.go`. The
keyspace id of an id is `vhash` of a 64-bit number: DES with the vindex's fixed
key over the number's eight big-endian bytes. The cipher is Go's `crypto/des`,
a parameter `encrypt` here; nothing below depends on what it computes.

`Hash.Hash` reads a signed id with `strconv.ParseInt` and takes its two's
complement, while `Verify` reads every id with `ToCastUint64`, the strict
unsigned `fastparse.ParseUint64`. The two agree on every id whose type is not
signed (`verify_agrees_with_map_of_not_signed`), and part ways on a negative
signed id.
-/

namespace Vitess.Vindexes

open Vitess.Sqltypes Vitess.Fastparse Vitess.Go Vitess.Key

/-- `binary.BigEndian.PutUint64`: the eight bytes of `n`, most significant first. -/
def putUint64 (n : ℕ) : List UInt8 :=
  (List.range 8).map fun i => UInt8.ofNat (n / 256 ^ (7 - i) % 256)

/-- `vhash`. -/
def vhash (encrypt : List UInt8 → List UInt8) (shardKey : ℕ) : List UInt8 :=
  encrypt (putUint64 shardKey)

/-- `Value.ToCastUint64`. -/
def toCastUint64 (v : Value) : Except ParseUintError ℕ :=
  ParseUint64 v.rawStr 10

/-- The error `Hash.Hash` returns: from `strconv.ParseInt` or from
`fastparse.ParseUint64`. -/
inductive HashError where
  | strconv (err : NumError)
  | fastparse (err : ParseUintError)
  deriving DecidableEq, Repr

namespace Hash

variable (encrypt : List UInt8 → List UInt8)

/-- `Hash.Hash`: a signed id through `ParseInt` and `uint64(ival)`, any other
through `ToCastUint64`. -/
def hash (id : Value) : Except HashError (List UInt8) :=
  if id.isSigned then
    match parseInt id.toString 64 with
    | .ok ival => .ok (vhash encrypt (ival % 2 ^ 64).toNat)
    | .error err => .error (.strconv err)
  else
    match toCastUint64 id with
    | .ok num => .ok (vhash encrypt num)
    | .error err => .error (.fastparse err)

/-- `Hash.Map`: an id that does not hash maps to `DestinationNone`. -/
def map (ids : List Value) : List Destination :=
  ids.map fun id =>
    match hash encrypt id with
    | .ok ksid => .keyspaceID ksid
    | .error _ => .none

/-- `Hash.Verify` over the ids paired with the keyspace ids to check, which its
callers pass with one keyspace id per id. The first id that does not parse
fails the call. -/
def verify : List (Value × List UInt8) → Except ParseUintError (List Bool)
  | [] => .ok []
  | (id, ksid) :: rest =>
    match toCastUint64 id with
    | .error err => .error err
    | .ok num =>
      match verify rest with
      | .error err => .error err
      | .ok out => .ok (decide (vhash encrypt num = ksid) :: out)

end Hash

/-- For an id whose type is not signed, `Map` and `Verify` read the same number:
the keyspace id `Map` gives it verifies, and every other keyspace id does not. -/
theorem verify_agrees_with_map_of_not_signed (encrypt : List UInt8 → List UInt8) {id : Value}
    (notSigned : id.isSigned = false) {ksid : List UInt8}
    (mapped : Hash.map encrypt [id] = [.keyspaceID ksid]) (other : List UInt8) :
    Hash.verify encrypt [(id, other)] = .ok [decide (ksid = other)] := by
  cases parsed : toCastUint64 id with
  | error err =>
    simp [Hash.map, Hash.hash, notSigned, parsed] at mapped
  | ok num =>
    have sameKey : vhash encrypt num = ksid := by
      simpa [Hash.map, Hash.hash, notSigned, parsed] using mapped
    simp [Hash.verify, parsed, sameKey]

/-- The id `-1` of a BIGINT column: `Map` hashes its two's complement
`2^64 - 1`, as for the unsigned id `18446744073709551615`, but `Verify` rejects
the text "-1" before it compares anything. -/
theorem negative_id_fails_verify (encrypt : List UInt8 → List UInt8) :
    Hash.map encrypt [⟨.INT64, "-1".toList⟩] = [.keyspaceID (vhash encrypt (2 ^ 64 - 1))] ∧
      Hash.map encrypt [⟨.UINT64, "18446744073709551615".toList⟩] =
        [.keyspaceID (vhash encrypt (2 ^ 64 - 1))] ∧
      Hash.verify encrypt [(⟨.INT64, "-1".toList⟩, vhash encrypt (2 ^ 64 - 1))] =
        .error (.cannotParse "-1".toList) := by
  refine ⟨rfl, rfl, rfl⟩

end Vitess.Vindexes
