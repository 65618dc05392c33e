import Vitess.Key.Span
import Vitess.Replication.Mysql56GtidSet
import Mathlib.Data.List.Chain
import Mathlib.Data.List.Lex
import Mathlib.Data.Char

/-!
# Sharding specs

`ParseShardingSpec` of `go/vt/key/key.go` reads a spec such as `-40-80-` as the
ranges `-40`, `40-80` and `80-`: the spec is split at every `-`, each part is a
hex boundary, and consecutive parts bound one range. Only the last part after the
first may be empty (the end of the keyspace); the first part may be empty too (its
start). `0` stands for the whole keyspace.

The order check compares the boundaries' text with Go's string `<=`, before they
are decoded. Consecutive ranges always share their boundary
(`parseShardingSpec_contiguous`), but the text order is not the keyspace order:
`80-8000` passes although both boundaries are the id `0x80`, and `B0-a0` passes
although `0xb0` comes after `0xa0` (`sharding_spec_text_order_admits_empty_ranges`).

`hex.DecodeString` decodes in place; a string here is its list of characters, so
a non-ASCII character is one invalid digit where Go sees several invalid bytes:
either way the boundary is refused. `s = nil` for an empty boundary is the empty
byte list.
-/

namespace Vitess.Key

open Vitess.Replication

/-- The errors of `hex.DecodeString`. -/
inductive HexError where
  /-- `InvalidByteError`. -/
  | invalidByte (c : Char)
  /-- `ErrLength`: an odd number of digits. -/
  | errLength
  deriving DecidableEq, Repr

/-- `hex.DecodeString`: the pairs of digits, then, for an odd length, the last
digit's own error or `ErrLength`. -/
def hexDecodeString (s : List Char) : Except HexError Bytes :=
  match hexDecode s with
  | .error c => .error (.invalidByte c)
  | .ok bytes =>
    if s.length % 2 = 1 then
      match s.getLast? with
      | some c => if (fromHexChar c).isNone then .error (.invalidByte c) else .error .errLength
      | none => .ok bytes
    else .ok bytes

/-- The errors of `ParseShardingSpec`, with the spec they quote. -/
inductive ShardingSpecError where
  /-- `malformed spec: doesn't define a range: %q`. -/
  | noRange (spec : List Char)
  /-- `malformed spec: MinKey/MaxKey cannot be in the middle of the spec: %q`. -/
  | emptyInMiddle (spec : List Char)
  /-- `malformed spec: shard limits should be in order: %q`. -/
  | notInOrder (spec : List Char)
  /-- An error of `hex.DecodeString`. -/
  | hex (err : HexError)
  deriving DecidableEq, Repr

/-- The loop of `ParseShardingSpec` over the parts after the first: `old` is the
previous part, `i` the index of `p` among them and `last` the index of the last. -/
def parseShardingSpecLoop (spec : List Char) (last : ℕ) :
    List Char → ℕ → List (List Char) → Except ShardingSpecError (List KeyRange)
  | _, _, [] => .ok []
  | old, i, p :: rest =>
    if p = [] ∧ i ≠ last then .error (.emptyInMiddle spec)
    else if p ≠ [] ∧ p ≤ old then .error (.notInOrder spec)
    else do
      let s ← (hexDecodeString old).mapError .hex
      let e ← (hexDecodeString p).mapError .hex
      let ranges ← parseShardingSpecLoop spec last p (i + 1) rest
      return ⟨s, e⟩ :: ranges

/-- `ParseShardingSpec`. -/
def parseShardingSpec (spec : List Char) : Except ShardingSpecError (List KeyRange) := do
  let parts ←
    if (spec.splitOn '-').length = 1 then
      if spec = "0".toList then pure [[], []] else .error (.noRange spec)
    else pure (spec.splitOn '-')
  match parts with
  | old :: rest => parseShardingSpecLoop spec (parts.length - 2) old 0 rest
  | [] => .ok []

/-! ### What `ParseShardingSpec` guarantees -/

/-- The loop's ranges: one per part, each ending where the next starts, the
first starting at the decoded `old`. -/
theorem parseShardingSpecLoop_chain {spec : List Char} {last : ℕ} :
    ∀ {old : List Char} {i : ℕ} {parts : List (List Char)} {ranges : List KeyRange},
      parseShardingSpecLoop spec last old i parts = .ok ranges →
      ranges.length = parts.length ∧ ranges.IsChain (fun a b => a.End = b.Start) ∧
        ∀ r ∈ ranges.head?, hexDecodeString old = .ok r.Start
  | _, _, [], ranges, parsed => by
    cases parsed
    exact ⟨rfl, List.isChain_nil, nofun⟩
  | old, i, p :: rest, ranges, parsed => by
    rw [parseShardingSpecLoop] at parsed
    split at parsed
    · cases parsed
    split at parsed
    · cases parsed
    cases decodedOld : hexDecodeString old with
    | error err => rw [decodedOld] at parsed; cases parsed
    | ok s =>
      cases decodedP : hexDecodeString p with
      | error err => rw [decodedOld, decodedP] at parsed; cases parsed
      | ok e =>
        cases looped : parseShardingSpecLoop spec last p (i + 1) rest with
        | error err => rw [decodedOld, decodedP, looped] at parsed; cases parsed
        | ok later =>
          rw [decodedOld, decodedP, looped] at parsed
          cases parsed
          obtain ⟨length, chain, starts⟩ := parseShardingSpecLoop_chain looped
          refine ⟨by simp [length], chain.cons fun next isNext => ?_, fun r isFirst => ?_⟩
          · -- the next range starts at `p`, which this one ends at
            have decodedNext := starts next isNext
            rw [decodedP, Except.ok.injEq] at decodedNext
            exact decodedNext
          · rw [List.head?_cons, Option.mem_some_iff] at isFirst
            subst isFirst
            rfl

/-- Consecutive ranges of an accepted spec share their boundary. -/
theorem parseShardingSpec_contiguous {spec : List Char} {ranges : List KeyRange}
    (parsed : parseShardingSpec spec = .ok ranges) : ranges.IsChain (fun a b => a.End = b.Start) := by
  -- whichever parts the spec splits into, the ranges come from the loop
  have fromLoop : ∀ parts : List (List Char),
      (match parts with
        | old :: rest => parseShardingSpecLoop spec (parts.length - 2) old 0 rest
        | [] => .ok []) = .ok ranges → ranges.IsChain (fun a b => a.End = b.Start) := by
    rintro (_ | ⟨old, rest⟩) looped
    · cases looped
      exact List.isChain_nil
    · exact (parseShardingSpecLoop_chain looped).2.1
  unfold parseShardingSpec at parsed
  split at parsed
  · split at parsed
    · exact fromLoop [[], []] parsed
    · cases parsed
  · exact fromLoop (spec.splitOn '-') parsed

/-- The order check compares text, not ids: `80-8000` is accepted with a range
from `0x80` to the same id `0x80 0x00`, and `B0-a0` with one from `0xb0` down to
`0xa0`. Neither boundary pair is increasing under `key.Less`, and neither range
holds any id. -/
theorem sharding_spec_text_order_admits_empty_ranges :
    parseShardingSpec "80-8000".toList = .ok [⟨[0x80], [0x80, 0]⟩] ∧
      parseShardingSpec "B0-a0".toList = .ok [⟨[0xb0], [0xa0]⟩] ∧
      less [0x80] [0x80, 0] = false ∧ less [0xb0] [0xa0] = false ∧
      (∀ id, keyRangeContains (some ⟨[0x80], [0x80, 0]⟩) id = false) ∧
      (∀ id, keyRangeContains (some ⟨[0xb0], [0xa0]⟩) id = false) :=
  ⟨by decide, by decide, by decide, by decide, keyRangeContains_eq_false_of_le (by decide),
    keyRangeContains_eq_false_of_le (by decide)⟩

end Vitess.Key
