import Vitess.Replication.Mysql56GtidSet
import Vitess.Key.Key
import Vitess.Data.KeyedFold

/-!
# The text form of MySQL 5.6 GTID sets

`SID.String` of `mysql56_gtid.go` and `Mysql56GTIDSet.String` of
`mysql56_gtid_set.go`, and the round trip through `ParseMysql56GTIDSet`. The
printer writes the SIDs in byte order, each as dashed hex followed by its
intervals, `:start` or `:start-end`; the parser cuts the text at commas and
colons, reads the numbers back (`parseUint_formatUint`) and sorts each list by
start, which leaves a list whose starts increase as it is
(`SortsByStart.eq_self`).

A set is `Normalized` when its lists are nonempty, sorted and disjoint, with
every interval inside `1 .. 2^63 - 1`; its text parses back to a set that is
`Equal` to it (`parseMysql56GTIDSet_string`).
-/

namespace Vitess.Replication

open Vitess.Go Vitess.IntervalList

/-! ### SIDs -/

/-- `hex.Encode`: two lower-case hex digits per byte, high half first. -/
def hexEncode : List UInt8 → List Char
  | [] => []
  | b :: rest => Nat.digitChar (b.toNat / 16) :: Nat.digitChar (b.toNat % 16) :: hexEncode rest

@[simp] theorem length_hexEncode (bytes : List UInt8) :
    (hexEncode bytes).length = 2 * bytes.length := by
  induction bytes with
  | nil => rfl
  | cons b rest inductionHypothesis =>
    simp only [hexEncode, List.length_cons, inductionHypothesis]
    omega

theorem hexEncode_append (l m : List UInt8) : hexEncode (l ++ m) = hexEncode l ++ hexEncode m := by
  induction l with
  | nil => rfl
  | cons b rest inductionHypothesis => simp [hexEncode, inductionHypothesis]

theorem mem_hexEncode {bytes : List UInt8} {c : Char} (member : c ∈ hexEncode bytes) :
    ∃ d < 16, c = Nat.digitChar d := by
  induction bytes with
  | nil => cases member
  | cons b rest inductionHypothesis =>
    have bound := b.toNat_lt
    rcases List.mem_cons.mp member with high | member
    · exact ⟨b.toNat / 16, by omega, high⟩
    rcases List.mem_cons.mp member with low | member
    · exact ⟨b.toNat % 16, by omega, low⟩
    exact inductionHypothesis member

theorem fromHexChar_digitChar :
    ∀ d : Fin 16, fromHexChar (Nat.digitChar d) = some (d : ℕ).toUInt8 := by
  decide

/-- A byte is its high half shifted up, or its low half. -/
theorem nibbles_toUInt8 :
    ∀ n : Fin 256, ((n / 16 : ℕ).toUInt8 <<< 4 ||| (n % 16 : ℕ).toUInt8) = (n : ℕ).toUInt8 := by
  decide +kernel

theorem hexDecode_hexEncode (bytes : List UInt8) : hexDecode (hexEncode bytes) = .ok bytes := by
  induction bytes with
  | nil => rfl
  | cons b rest inductionHypothesis =>
    have bound := b.toNat_lt
    have high := fromHexChar_digitChar ⟨b.toNat / 16, by omega⟩
    have low := fromHexChar_digitChar ⟨b.toNat % 16, by omega⟩
    have byte := nibbles_toUInt8 ⟨b.toNat, by omega⟩
    simp only at high low byte
    simp [hexEncode, hexDecode, high, low, inductionHypothesis, byte]

/-- `SID.String`: the bytes in hex, dashed as 8-4-4-4-12 digits. -/
def SID.string (sid : SID) : List Char :=
  hexEncode (sid.bytes.take 4) ++ '-' :: hexEncode ((sid.bytes.drop 4).take 2) ++ '-' ::
    hexEncode ((sid.bytes.drop 6).take 2) ++ '-' :: hexEncode ((sid.bytes.drop 8).take 2) ++ '-' ::
    hexEncode (sid.bytes.drop 10)

/-- A SID's text holds hex digits and dashes only. -/
theorem mem_string {sid : SID} {c : Char} (member : c ∈ sid.string) :
    c = '-' ∨ ∃ d < 16, c = Nat.digitChar d := by
  simp only [SID.string, List.mem_append, List.mem_cons] at member
  rcases member with ((((inHex | dash | inHex) | dash | inHex) | dash | inHex) | dash | inHex)
  all_goals first
    | exact .inl ‹_›
    | exact .inr (mem_hexEncode ‹_›)

/-- `ParseSID` reads back what `SID.String` writes. -/
theorem parseSID_string (sid : SID) : parseSID sid.string = .ok sid := by
  obtain ⟨bytes, length⟩ := sid
  have shape : (SID.string ⟨bytes, length⟩).length = 36 ∧
      (SID.string ⟨bytes, length⟩)[8]? = some '-' ∧ (SID.string ⟨bytes, length⟩)[13]? = some '-' ∧
      (SID.string ⟨bytes, length⟩)[18]? = some '-' ∧ (SID.string ⟨bytes, length⟩)[23]? = some '-' := by
    simp [SID.string, length]
  -- without its dashes the text is the hex of all sixteen bytes
  have digits : (SID.string ⟨bytes, length⟩).take 8 ++ ((SID.string ⟨bytes, length⟩).drop 9).take 4 ++
      ((SID.string ⟨bytes, length⟩).drop 14).take 4 ++ ((SID.string ⟨bytes, length⟩).drop 19).take 4 ++
      (SID.string ⟨bytes, length⟩).drop 24 = hexEncode bytes := by
    simp only [SID.string]
    simp [length, List.drop_append, List.drop_of_length_le]
    rw [← hexEncode_append, ← hexEncode_append, ← hexEncode_append, ← hexEncode_append]
    congr 1
    calc bytes.take 4 ++ ((bytes.drop 4).take 2 ++ ((bytes.drop 6).take 2 ++
          ((bytes.drop 8).take 2 ++ bytes.drop 10)))
        = bytes.take 4 ++ ((bytes.drop 4).take 2 ++ ((bytes.drop 6).take 2 ++ bytes.drop 8)) := by
          rw [show bytes.drop 10 = (bytes.drop 8).drop 2 by rw [List.drop_drop],
            List.take_append_drop]
      _ = bytes.take 4 ++ ((bytes.drop 4).take 2 ++ bytes.drop 6) := by
          rw [show bytes.drop 8 = (bytes.drop 6).drop 2 by rw [List.drop_drop],
            List.take_append_drop]
      _ = bytes.take 4 ++ bytes.drop 4 := by
          rw [show bytes.drop 6 = (bytes.drop 4).drop 2 by rw [List.drop_drop],
            List.take_append_drop]
      _ = bytes := List.take_append_drop 4 bytes
  unfold parseSID
  rw [dif_pos shape]
  dsimp only
  split
  · rename_i decodedBytes decoded
    rw [digits, hexDecode_hexEncode] at decoded
    cases decoded
    rfl
  · rename_i c decoded
    rw [digits, hexDecode_hexEncode] at decoded
    cases decoded

/-! ### Sets -/

/-- `SIDs()`: the set's SIDs, sorted by `bytes.Compare`. -/
def Mysql56GTIDSet.sids (set : Mysql56GTIDSet) : List SID :=
  set.keys.mergeSort fun a b => decide (Vitess.Key.bytesCompare a.bytes b.bytes ≤ 0)

/-- The text `String` writes for one interval after its colon: the start, and
the end after a dash when it differs. -/
def intervalText (iv : Interval) : List Char :=
  formatInt iv.start ++ if iv.stop ≠ iv.start then '-' :: formatInt iv.stop else []

/-- The text of one SID and its intervals. -/
def uuidSetText (sid : SID) (intervals : List Interval) : List Char :=
  sid.string ++ intervals.flatMap fun iv => ':' :: intervalText iv

/-- `Mysql56GTIDSet.String`: the SIDs in order with their intervals, separated by
commas. -/
def Mysql56GTIDSet.string (set : Mysql56GTIDSet) : List Char :=
  [','].intercalate (set.sids.map fun sid => uuidSetText sid ((set.lookup sid).getD []))

/-- Every list nonempty, sorted and disjoint, and every interval inside
`1 .. 2^63 - 1`. -/
def Mysql56GTIDSet.Normalized (set : Mysql56GTIDSet) : Prop :=
  ∀ entry ∈ set.entries, entry.2 ≠ [] ∧ Ordered entry.2 ∧
    ∀ iv ∈ entry.2, 1 ≤ iv.start ∧ iv.stop < 2 ^ 63

instance (set : Mysql56GTIDSet) : Decidable set.Normalized :=
  inferInstanceAs (Decidable (∀ entry ∈ set.entries, _))

theorem Mysql56GTIDSet.Normalized.lookup {set : Mysql56GTIDSet} (normalized : set.Normalized)
    {sid : SID} {intervals : List Interval} (found : set.lookup sid = some intervals) :
    intervals ≠ [] ∧ Ordered intervals ∧ ∀ iv ∈ intervals, 1 ≤ iv.start ∧ iv.stop < 2 ^ 63 :=
  normalized ⟨sid, intervals⟩ (AList.mem_lookup_iff.mp found)

/-- Two sets with the same intervals at every SID are `Equal`. -/
theorem Mysql56GTIDSet.equal_of_lookup {set other : Mysql56GTIDSet}
    (same : ∀ sid, set.lookup sid = other.lookup sid) : set.equal other = true := by
  have perm : set.entries.Perm other.entries :=
    List.lookup_ext set.nodupKeys other.nodupKeys fun sid intervals => by
      change intervals ∈ set.lookup sid ↔ intervals ∈ other.lookup sid
      rw [same sid]
  simp only [Mysql56GTIDSet.equal, perm.length_eq, beq_self_eq_true, Bool.true_and,
    List.all_eq_true, beq_iff_eq]
  intro entry member
  rw [← same entry.1, AList.mem_lookup_iff.mpr member, Option.getD_some]

/-! ### Cutting the text apart -/

theorem cutLoop_append_sep {sep : Char} {piece : List Char} (noSep : sep ∉ piece)
    (rest : List Char) : cutLoop sep (piece ++ sep :: rest) = piece :: cutLoop sep rest := by
  induction piece with
  | nil => simp [cutLoop]
  | cons c piece inductionHypothesis =>
    have different : c ≠ sep := fun same => noSep (same ▸ List.mem_cons_self)
    rw [List.cons_append, cutLoop, if_neg different,
      inductionHypothesis (fun member => noSep (List.mem_cons_of_mem c member))]

theorem cutLoop_of_not_mem {sep : Char} {piece : List Char} (nonempty : piece ≠ [])
    (noSep : sep ∉ piece) : cutLoop sep piece = [piece] := by
  induction piece with
  | nil => exact absurd rfl nonempty
  | cons c rest inductionHypothesis =>
    have different : c ≠ sep := fun same => noSep (same ▸ List.mem_cons_self)
    rw [cutLoop, if_neg different]
    cases rest with
    | nil => simp [cutLoop]
    | cons d more =>
      rw [inductionHypothesis (List.cons_ne_nil d more)
        (fun member => noSep (List.mem_cons_of_mem c member))]

/-- Nonempty pieces without the separator, joined by it, are cut back apart. -/
theorem cutLoop_intercalate {sep : Char} :
    ∀ {pieces : List (List Char)}, (∀ piece ∈ pieces, piece ≠ [] ∧ sep ∉ piece) →
      cutLoop sep ([sep].intercalate pieces) = pieces
  | [], _ => rfl
  | [piece], clean => by
    have ⟨nonempty, noSep⟩ := clean piece List.mem_cons_self
    simp [cutLoop_of_not_mem nonempty noSep]
  | piece :: next :: rest, clean => by
    have noSep := (clean piece List.mem_cons_self).2
    rw [List.intercalate_cons_cons, List.append_assoc, List.singleton_append,
      cutLoop_append_sep noSep, cutLoop_intercalate fun other member =>
        clean other (List.mem_cons_of_mem piece member)]

/-- Each interval after a colon is the colon-joined list of their texts after one. -/
theorem flatMap_colon {intervals : List Interval} (nonempty : intervals ≠ []) :
    intervals.flatMap (fun iv => ':' :: intervalText iv) =
      ':' :: [':'].intercalate (intervals.map intervalText) := by
  induction intervals with
  | nil => exact absurd rfl nonempty
  | cons iv rest inductionHypothesis =>
    cases rest with
    | nil => simp
    | cons next more =>
      rw [List.flatMap_cons, inductionHypothesis (List.cons_ne_nil next more)]
      simp [List.intercalate_cons_cons]

/-! ### Characters of the text -/

theorem hexDigit_ne_separators :
    ∀ d : Fin 16, Nat.digitChar d ≠ ',' ∧ Nat.digitChar d ≠ ':' ∧ isSpace (Nat.digitChar d) = false := by
  decide

theorem sid_string_ne_separators {sid : SID} {c : Char} (member : c ∈ sid.string) :
    c ≠ ',' ∧ c ≠ ':' ∧ isSpace c = false := by
  rcases mem_string member with dash | ⟨d, small, hex⟩
  · subst dash
    decide
  · subst hex
    exact hexDigit_ne_separators ⟨d, small⟩

/-- The text of an interval with a positive start: digits, and a dash between
the two numbers. -/
theorem intervalText_ne_separators {iv : Interval} (positive : 1 ≤ iv.start)
    (nonempty : iv.Nonempty) {c : Char} (member : c ∈ intervalText iv) :
    c ≠ ',' ∧ c ≠ ':' ∧ isSpace c = false := by
  unfold Interval.Nonempty at nonempty
  have startText := formatInt_of_nonneg (show 0 ≤ iv.start by omega)
  have stopText := formatInt_of_nonneg (show 0 ≤ iv.stop by omega)
  simp only [intervalText, startText, stopText, List.mem_append] at member
  rcases member with inStart | inRest
  · have := separators_of_isDigit (isDigit_of_mem_formatUint inStart)
    exact ⟨this.1, this.2.1, this.2.2.2.2⟩
  · split at inRest
    · rcases List.mem_cons.mp inRest with dash | inStop
      · subst dash
        decide
      · have := separators_of_isDigit (isDigit_of_mem_formatUint inStop)
        exact ⟨this.1, this.2.1, this.2.2.2.2⟩
    · cases inRest

/-! ### Reading the text back -/

/-- `parseInterval` reads back the text of an interval inside `1 .. 2^63 - 1`. -/
theorem parseInterval_intervalText {iv : Interval} (positive : 1 ≤ iv.start)
    (nonempty : iv.Nonempty) (bounded : iv.stop < 2 ^ 63) :
    parseInterval (intervalText iv) = .ok iv := by
  obtain ⟨start, stop⟩ := iv
  unfold Interval.Nonempty at nonempty
  simp only at positive nonempty bounded
  have startText := formatInt_of_nonneg (show 0 ≤ start by omega)
  have readStart : parseUint (formatUint start.toNat) 63 = .ok start.toNat :=
    parseUint_formatUint (by decide) (by omega)
  have noDash : '-' ∉ formatUint start.toNat := fun member =>
    (separators_of_isDigit (isDigit_of_mem_formatUint member)).2.2.1 rfl
  by_cases same : stop = start
  · subst same
    simp only [intervalText, ne_eq, not_true_eq_false, if_false, List.append_nil, startText]
    simp only [parseInterval, cut_of_not_mem noDash, readStart]
    simp [show ¬ stop.toNat < 1 by omega, Int.toNat_of_nonneg (show 0 ≤ stop by omega)]
  · have stopText := formatInt_of_nonneg (show 0 ≤ stop by omega)
    have readStop : parseUint (formatUint stop.toNat) 63 = .ok stop.toNat :=
      parseUint_formatUint (by decide) (by omega)
    simp only [intervalText, ne_eq, same, not_false_eq_true, if_true, startText, stopText]
    simp only [parseInterval, cut_append noDash, readStart, readStop]
    simp [show ¬ start.toNat < 1 by omega, Int.toNat_of_nonneg (show 0 ≤ start by omega),
      Int.toNat_of_nonneg (show 0 ≤ stop by omega)]

theorem parseIntervals_intervalText (s : List Char) :
    ∀ {intervals : List Interval}, (∀ iv ∈ intervals, 1 ≤ iv.start ∧ iv.Nonempty ∧ iv.stop < 2 ^ 63) →
      parseIntervals s (intervals.map intervalText) = .ok intervals
  | [], _ => rfl
  | iv :: rest, valid => by
    obtain ⟨positive, nonempty, bounded⟩ := valid iv List.mem_cons_self
    have restRead := parseIntervals_intervalText s fun other member =>
      valid other (List.mem_cons_of_mem iv member)
    unfold Interval.Nonempty at nonempty
    simp [parseIntervals, parseInterval_intervalText positive nonempty bounded, restRead,
      show ¬ iv.stop < iv.start by omega]

/-- A list whose starts increase comes out of the sort as it went in. -/
theorem SortsByStart.eq_self {sortFunc : List Interval → List Interval}
    (sorts : SortsByStart sortFunc) {intervals : List Interval} (ordered : Ordered intervals) :
    sortFunc intervals = intervals :=
  eq_of_perm_of_sorted_start (sorts.perm intervals) (sorts.sorted intervals) ordered.starts_lt

section Parse

variable {sortFunc : List Interval → List Interval} (sorts : SortsByStart sortFunc)
include sorts

/-- One SID's text adds that SID with its intervals to a set that lacks it. -/
theorem addUUIDSet_uuidSetText (s : List Char) {acc : Mysql56GTIDSet} {sid : SID}
    {intervals : List Interval} (fresh : acc.lookup sid = none) (nonempty : intervals ≠ [])
    (ordered : Ordered intervals) (bounded : ∀ iv ∈ intervals, 1 ≤ iv.start ∧ iv.stop < 2 ^ 63) :
    addUUIDSet sortFunc s acc (uuidSetText sid intervals) = .ok (acc.insert sid intervals) := by
  have valid : ∀ iv ∈ intervals, 1 ≤ iv.start ∧ iv.Nonempty ∧ iv.stop < 2 ^ 63 :=
    fun iv member => ⟨(bounded iv member).1, ordered.1 iv member, (bounded iv member).2⟩
  have textClean : ∀ text ∈ intervals.map intervalText, text ≠ [] ∧ ':' ∉ text := by
    intro text member
    obtain ⟨iv, isMember, rfl⟩ := List.mem_map.mp member
    obtain ⟨positive, ivNonempty, -⟩ := valid iv isMember
    refine ⟨by simp [intervalText, formatInt_of_nonneg (show 0 ≤ iv.start by omega),
      formatUint_ne_nil], fun colon => ?_⟩
    exact (intervalText_ne_separators positive ivNonempty colon).2.1 rfl
  have noColon : ':' ∉ sid.string := fun member => (sid_string_ne_separators member).2.1 rfl
  have noSpace : ∀ c ∈ uuidSetText sid intervals, isSpace c = false := by
    intro c member
    simp only [uuidSetText, List.mem_append, List.mem_flatMap, List.mem_cons] at member
    rcases member with inSid | ⟨iv, isMember, colon | inText⟩
    · exact (sid_string_ne_separators inSid).2.2
    · subst colon
      decide
    · exact (intervalText_ne_separators (valid iv isMember).1 (valid iv isMember).2.1 inText).2.2
  have text : uuidSetText sid intervals =
      sid.string ++ ':' :: [':'].intercalate (intervals.map intervalText) := by
    rw [uuidSetText, flatMap_colon nonempty]
  have notEmpty : (uuidSetText sid intervals).isEmpty = false := by
    simp [text]
  unfold addUUIDSet
  simp only [trimSpace_of_forall noSpace, notEmpty, Bool.false_eq_true, if_false]
  rw [text, cut_append noColon]
  simp only [Bool.not_true, Bool.false_eq_true, if_false, parseSID_string,
    cutLoop_intercalate textClean, parseIntervals_intervalText s valid, fresh, Option.getD_none,
    List.nil_append, sorts.eq_self ordered]
  simp [List.isEmpty_iff, nonempty]

/-- `ParseMysql56GTIDSet` reads a normalized set back from its `String`: the set
it returns has the same intervals at every SID, and so is `Equal` to it. -/
theorem parseMysql56GTIDSet_string {set : Mysql56GTIDSet} (normalized : set.Normalized) :
    ∃ parsed, parseMysql56GTIDSet sortFunc set.string = .ok parsed ∧
      ∀ sid, parsed.lookup sid = set.lookup sid := by
  have sidsPerm : set.sids.Perm set.keys := List.mergeSort_perm _ _
  have present : ∀ sid ∈ set.sids, ∃ intervals, set.lookup sid = some intervals := fun sid member =>
    Option.isSome_iff_exists.mp (AList.lookup_isSome.mpr (sidsPerm.subset member))
  have clean : ∀ text ∈ set.sids.map (fun sid => uuidSetText sid ((set.lookup sid).getD [])),
      text ≠ [] ∧ ',' ∉ text := by
    intro text member
    obtain ⟨sid, isMember, rfl⟩ := List.mem_map.mp member
    obtain ⟨intervals, found⟩ := present sid isMember
    obtain ⟨-, ordered, bounded⟩ := normalized.lookup found
    rw [found, Option.getD_some]
    refine ⟨by simp [uuidSetText, SID.string], fun comma => ?_⟩
    simp only [uuidSetText, List.mem_append, List.mem_flatMap, List.mem_cons] at comma
    rcases comma with inSid | ⟨iv, isMember, colon | inText⟩
    · exact (sid_string_ne_separators inSid).1 rfl
    · cases colon
    · exact (intervalText_ne_separators (bounded iv isMember).1 (ordered.1 iv isMember) inText).1 rfl
  -- each SID's text inserts the SID with its intervals
  have inserts : ∀ sid ∈ set.sids, ∀ acc : Mysql56GTIDSet, acc.lookup sid = none →
      addUUIDSet sortFunc set.string acc (uuidSetText sid ((set.lookup sid).getD [])) =
        .ok (acc.insert sid ((set.lookup sid).getD [])) := by
    intro sid member acc fresh
    obtain ⟨intervals, found⟩ := present sid member
    obtain ⟨nonempty, ordered, bounded⟩ := normalized.lookup found
    rw [found, Option.getD_some]
    exact addUUIDSet_uuidSetText sorts _ fresh nonempty ordered bounded
  rw [parseMysql56GTIDSet, Mysql56GTIDSet.string, cutLoop_intercalate clean, List.foldlM_map]
  refine KeyedFold.foldlM_rebuild set sidsPerm _ (fun sid => (set.lookup sid).getD [])
    (fun sid member => ?_) inserts
  obtain ⟨intervals, found⟩ := present sid member
  rw [found, Option.getD_some]

end Parse

end Vitess.Replication
