import Mathlib.Data.List.DropRight
import Mathlib.Tactic.Ring

/-!
# Go's integer parsers and printers, and string helpers

The parts of Go's standard library that the parsers and printers of this project
call: `strconv.ParseUint` for base 10 and for base 0 (the base given by a
prefix), `strconv.ParseInt` for base 10, `strconv.FormatUint` and `FormatInt`
for base 10 (and `%d`), `strings.Cut` with a one-character separator, and
`strings.TrimSpace`. They follow the library's documented behaviour and, where
it fixes which error is reported first, its loop. A Go string is read as its
sequence of characters; every input this project feeds them is ASCII, where
characters and bytes coincide.

The printers and parsers agree: `parseUint_formatUint` and
`parseUintBase0_formatUint` read back every number the printer writes, as long
as it fits the parser's bit size.
-/

namespace Vitess.Go

/-- The two failures of `strconv`: `ErrSyntax` and `ErrRange`. -/
inductive NumErrorKind where
  | errSyntax
  | errRange
  deriving DecidableEq, Repr

/-- `strconv.NumError`: the function, its input and the failure. -/
structure NumError where
  Func : String
  Num : List Char
  Err : NumErrorKind
  deriving DecidableEq, Repr

/-- An ASCII decimal digit. -/
def isDigit (c : Char) : Bool :=
  '0' ≤ c && c ≤ '9'

/-- The value of a decimal digit. -/
def digitValue (c : Char) : ℕ :=
  c.toNat - '0'.toNat

/-- `maxUint64/10 + 1`, the first `n` for which `n*10` overflows. -/
def cutoff10 : ℕ :=
  (2 ^ 64 - 1) / 10 + 1

/-- The digit loop of `ParseUint` in base 10. A byte that is not a digit is a
syntax error; a value past `maxVal` (or one whose `n*10` would leave `uint64`)
is a range error; the first failure met wins. -/
def parseUintDigits (maxVal : ℕ) : ℕ → List Char → Except NumErrorKind ℕ
  | n, [] => .ok n
  | n, c :: rest =>
    if isDigit c then
      if n ≥ cutoff10 then .error .errRange
      else if n * 10 + digitValue c > maxVal then .error .errRange
      else parseUintDigits maxVal (n * 10 + digitValue c) rest
    else .error .errSyntax

/-- `strconv.ParseUint(s, 10, bitSize)`. -/
def parseUint (s : List Char) (bitSize : ℕ) : Except NumError ℕ :=
  if s.isEmpty then .error ⟨"ParseUint", s, .errSyntax⟩
  else
    match parseUintDigits (2 ^ bitSize - 1) 0 s with
    | .ok n => .ok n
    | .error kind => .error ⟨"ParseUint", s, kind⟩

/-- `strconv.ParseInt(s, 10, bitSize)`: an optional sign, then `ParseUint` and
the signed range check. A range error of `ParseUint` leaves the magnitude at
`maxVal`, which fails the range check on either sign, so it is reported as a
range error of `ParseInt`. -/
def parseInt (s : List Char) (bitSize : ℕ) : Except NumError ℤ :=
  match s with
  | [] => .error ⟨"ParseInt", s, .errSyntax⟩
  | c :: rest =>
    let neg := c = '-'
    let digits := if c = '+' ∨ c = '-' then rest else c :: rest
    match parseUint digits bitSize with
    | .error err => .error ⟨"ParseInt", s, err.Err⟩
    | .ok un =>
      let cutoff := 2 ^ (bitSize - 1)
      if !neg ∧ un ≥ cutoff then .error ⟨"ParseInt", s, .errRange⟩
      else if neg ∧ un > cutoff then .error ⟨"ParseInt", s, .errRange⟩
      else .ok (if neg then -(un : ℤ) else un)

/-! ### `ParseUint` with base 0 -/

/-- `lower(c)` of `strconv`: an ASCII letter in lower case, by setting the bit
`'x' - 'X'`. -/
def lower (c : Char) : Char :=
  Char.ofNat (c.toNat ||| 0x20)

/-- The value of a digit for `ParseUint`: `0` to `9`, then the letters of either
case from 10 on. -/
def digitOrLetterValue (c : Char) : Option ℕ :=
  if '0' ≤ c ∧ c ≤ '9' then some (c.toNat - '0'.toNat)
  else if 'a' ≤ lower c ∧ lower c ≤ 'z' then some ((lower c).toNat - 'a'.toNat + 10)
  else none

/-- The digit loop of `ParseUint` in `base`. When the base came from a prefix
(`base0`), underscores are skipped, and the result says whether one was seen. -/
def parseDigitsBase (base maxVal : ℕ) (base0 : Bool) :
    ℕ → Bool → List Char → Except NumErrorKind (ℕ × Bool)
  | n, underscores, [] => .ok (n, underscores)
  | n, underscores, c :: rest =>
    if c = '_' ∧ base0 then parseDigitsBase base maxVal base0 n true rest
    else
      match digitOrLetterValue c with
      | none => .error .errSyntax
      | some d =>
        if d ≥ base then .error .errSyntax
        else if n ≥ (2 ^ 64 - 1) / base + 1 then .error .errRange
        else if n * base + d > maxVal then .error .errRange
        else parseDigitsBase base maxVal base0 (n * base + d) underscores rest

/-- The base `ParseUint` takes from the prefix when called with base 0, and the
digits after the prefix: `0b`, `0o` and `0x` need a digit after them, and a
bare leading `0` means octal. -/
def readBase : List Char → ℕ × List Char
  | '0' :: c :: more@(_ :: _) =>
    if lower c = 'b' then (2, more)
    else if lower c = 'o' then (8, more)
    else if lower c = 'x' then (16, more)
    else (8, c :: more)
  | '0' :: rest => (8, rest)
  | s => (10, s)

/-- What the loop of `underscoreOK` saw last: the beginning, a digit (or base
prefix), an underscore, or anything else. -/
inductive Saw where
  | beginning
  | digit
  | underscore
  | other
  deriving DecidableEq, Repr

/-- The loop of `underscoreOK` over the number proper. -/
def underscoreLoop (hex : Bool) : Saw → List Char → Bool
  | saw, [] => saw != .underscore
  | saw, c :: rest =>
    if ('0' ≤ c ∧ c ≤ '9') ∨ (hex ∧ 'a' ≤ lower c ∧ lower c ≤ 'f') then
      underscoreLoop hex .digit rest
    else if c = '_' then
      if saw != .digit then false else underscoreLoop hex .underscore rest
    else if saw = .underscore then false
    else underscoreLoop hex .other rest

/-- `underscoreOK`: every underscore stands between digits, a base prefix
counting as a digit, after an optional sign. -/
def underscoreOK (s : List Char) : Bool :=
  let unsigned := match s with
    | c :: rest => if c = '-' ∨ c = '+' then rest else s
    | [] => []
  match unsigned with
  | '0' :: c :: rest =>
    if lower c = 'b' ∨ lower c = 'o' ∨ lower c = 'x' then underscoreLoop (lower c = 'x') .digit rest
    else underscoreLoop false .beginning unsigned
  | _ => underscoreLoop false .beginning unsigned

/-- `strconv.ParseUint(s, 0, bitSize)`. -/
def parseUintBase0 (s : List Char) (bitSize : ℕ) : Except NumError ℕ :=
  if s.isEmpty then .error ⟨"ParseUint", s, .errSyntax⟩
  else
    let (base, digits) := readBase s
    match parseDigitsBase base (2 ^ bitSize - 1) true 0 false digits with
    | .error kind => .error ⟨"ParseUint", s, kind⟩
    | .ok (n, underscores) =>
      if underscores ∧ !underscoreOK s then .error ⟨"ParseUint", s, .errSyntax⟩ else .ok n

/-! ### `ParseUint` and `ParseInt` in a given base -/

/-- `strconv.ParseUint(s, base, bitSize)` for a base in `[2, 36]`: the digit loop
without underscores. (Go rejects any other base first; no caller modelled here
passes one.) -/
def parseUintBase (s : List Char) (base bitSize : ℕ) : Except NumError ℕ :=
  if s.isEmpty then .error ⟨"ParseUint", s, .errSyntax⟩
  else
    match parseDigitsBase base (2 ^ bitSize - 1) false 0 false s with
    | .error kind => .error ⟨"ParseUint", s, kind⟩
    | .ok (n, _) => .ok n

/-- `strconv.ParseInt(s, base, bitSize)` for a base in `[2, 36]`: the shape of
`parseInt`, over `parseUintBase`. -/
def parseIntBase (s : List Char) (base bitSize : ℕ) : Except NumError ℤ :=
  match s with
  | [] => .error ⟨"ParseInt", s, .errSyntax⟩
  | c :: rest =>
    let neg := c = '-'
    let digits := if c = '+' ∨ c = '-' then rest else c :: rest
    match parseUintBase digits base bitSize with
    | .error err => .error ⟨"ParseInt", s, err.Err⟩
    | .ok un =>
      let cutoff := 2 ^ (bitSize - 1)
      if !neg ∧ un ≥ cutoff then .error ⟨"ParseInt", s, .errRange⟩
      else if neg ∧ un > cutoff then .error ⟨"ParseInt", s, .errRange⟩
      else .ok (if neg then -(un : ℤ) else un)

theorem le_foldl_mul_add {base : ℕ} (positive : 0 < base) (value : Char → ℕ) :
    ∀ (cs : List Char) (acc : ℕ), acc ≤ cs.foldl (fun n c => n * base + value c) acc
  | [], _ => le_rfl
  | c :: rest, acc => by
    rw [List.foldl_cons]
    have grows : acc ≤ acc * base + value c :=
      Nat.le_add_right_of_le (Nat.le_mul_of_pos_right acc positive)
    exact grows.trans (le_foldl_mul_add positive value rest _)

/-- Digits of `base` whose value stays within `maxVal` read as that value. -/
theorem parseDigitsBase_of_digits {base maxVal : ℕ} (bounded : maxVal < 2 ^ 64) (positive : 0 < base)
    (value : Char → ℕ) :
    ∀ (cs : List Char) (acc : ℕ), (∀ c ∈ cs, digitOrLetterValue c = some (value c) ∧ value c < base) →
      cs.foldl (fun n c => n * base + value c) acc ≤ maxVal →
      parseDigitsBase base maxVal false acc false cs =
        .ok (cs.foldl (fun n c => n * base + value c) acc, false)
  | [], acc, _, _ => by simp [parseDigitsBase]
  | c :: rest, acc, digits, fits => by
    obtain ⟨read, below⟩ := digits c List.mem_cons_self
    rw [List.foldl_cons] at fits ⊢
    have atLeast := le_foldl_mul_add positive value rest (acc * base + value c)
    have noCarry : acc ≤ (2 ^ 64 - 1) / base := by
      rw [Nat.le_div_iff_mul_le positive]
      omega
    rw [parseDigitsBase, if_neg (by simp), read]
    dsimp only
    rw [if_neg (by omega), if_neg (by omega), if_neg (by omega)]
    exact parseDigitsBase_of_digits bounded positive value rest _
      (fun c member => digits c (List.mem_cons_of_mem _ member)) fits

/-! ### Printing numbers -/

/-- `strconv.FormatUint(n, 10)`, and `%d` of an unsigned integer: the decimal
digits, most significant first. -/
def formatUint (n : ℕ) : List Char :=
  Nat.toDigits 10 n

/-- `strconv.FormatInt(z, 10)`, and `%d` of a signed integer. -/
def formatInt (z : ℤ) : List Char :=
  if z < 0 then '-' :: formatUint z.natAbs else formatUint z.toNat

theorem formatInt_of_nonneg {z : ℤ} (nonneg : 0 ≤ z) : formatInt z = formatUint z.toNat := by
  simp [formatInt, show ¬ z < 0 by omega]

theorem isDigit_of_mem_formatUint {n : ℕ} {c : Char} (member : c ∈ formatUint n) :
    isDigit c = true :=
  Nat.isDigit_of_mem_toDigits (by decide) (by decide) member

theorem formatUint_ne_nil (n : ℕ) : formatUint n ≠ [] :=
  Nat.toDigits_ne_nil

theorem ofDigitChars_formatUint (n : ℕ) : Nat.ofDigitChars 10 (formatUint n) 0 = n :=
  Nat.ofDigitChars_ten_toDigits

/-- Below `10^k`, at most `k` digits are written. -/
theorem length_formatUint_le {n k : ℕ} (positive : 0 < k) (below : n < 10 ^ k) : (formatUint n).length ≤ k :=
  (Nat.length_toDigits_le_iff (by decide) positive).mpr below

/-- A positive number is written without a leading zero. -/
theorem formatUint_head_ne_zero {n : ℕ} (positive : 0 < n) :
    ∃ c rest, formatUint n = c :: rest ∧ c ≠ '0' := by
  induction n using Nat.strong_induction_on with
  | _ n inductionHypothesis =>
    by_cases small : n < 10
    · refine ⟨n.digitChar, [], Nat.toDigits_of_lt_base small, ?_⟩
      simp only [ne_eq, Nat.digitChar_eq_zero]
      omega
    · obtain ⟨c, rest, written, nonzero⟩ :=
        inductionHypothesis (n / 10) (by omega) (by omega)
      refine ⟨c, rest ++ [(n % 10).digitChar], ?_, nonzero⟩
      rw [formatUint, Nat.toDigits_of_base_le (by decide) (by omega)]
      rw [formatUint] at written
      rw [written, List.cons_append]

/-! ### Reading printed numbers back -/

theorem isDigit_iff {c : Char} : isDigit c = true ↔ 48 ≤ c.toNat ∧ c.toNat ≤ 57 := by
  simp only [isDigit, Bool.and_eq_true, decide_eq_true_eq, Char.le_def, UInt32.le_iff_toNat_le]
  rfl

/-- A decimal digit as `ParseUint` reads it. -/
theorem digitValue_eq {c : Char} : digitValue c = c.toNat - '0'.toNat := rfl

/-- Reading more digits never lowers the value. -/
theorem le_ofDigitChars (cs : List Char) (init : ℕ) : init ≤ Nat.ofDigitChars 10 cs init := by
  rw [Nat.ofDigitChars_eq_ofDigitChars_zero]
  calc init ≤ 10 ^ cs.length * init := Nat.le_mul_of_pos_left init (Nat.pow_pos (by decide))
    _ ≤ 10 ^ cs.length * init + Nat.ofDigitChars 10 cs 0 := Nat.le_add_right ..

/-- A string of digits reads as the number it spells, from any start value that
leaves every prefix in range: each value along the way is at most the last. -/
theorem parseUintDigits_ofDigitChars {maxVal : ℕ} (bounded : maxVal < 2 ^ 64) :
    ∀ (cs : List Char) (acc : ℕ), (∀ c ∈ cs, isDigit c = true) →
      Nat.ofDigitChars 10 cs acc ≤ maxVal →
      parseUintDigits maxVal acc cs = .ok (Nat.ofDigitChars 10 cs acc)
  | [], acc, _, _ => by simp [parseUintDigits]
  | c :: rest, acc, digits, fits => by
    rw [Nat.ofDigitChars_cons] at fits ⊢
    have atLeast := le_ofDigitChars rest (10 * acc + (c.toNat - '0'.toNat))
    have next : acc * 10 + digitValue c = 10 * acc + (c.toNat - '0'.toNat) := by
      rw [digitValue_eq]
      ring
    rw [parseUintDigits, if_pos (digits c List.mem_cons_self), if_neg (by unfold cutoff10; omega),
      if_neg (by omega), next]
    exact parseUintDigits_ofDigitChars bounded rest _
      (fun c member => digits c (List.mem_cons_of_mem _ member)) fits

/-- `ParseUint` in base 10 reads back what `FormatUint` writes, for every number
that fits the bit size. -/
theorem parseUint_formatUint {bitSize n : ℕ} (wide : bitSize ≤ 64) (fits : n < 2 ^ bitSize) :
    parseUint (formatUint n) bitSize = .ok n := by
  have widest : 2 ^ bitSize ≤ 2 ^ 64 := Nat.pow_le_pow_right (by decide) wide
  have read := parseUintDigits_ofDigitChars (by omega : 2 ^ bitSize - 1 < 2 ^ 64) (formatUint n) 0
    (fun c member => isDigit_of_mem_formatUint member)
    (by simp only [formatUint, Nat.ofDigitChars_ten_toDigits]; omega)
  simp only [formatUint, Nat.ofDigitChars_ten_toDigits] at read
  simp [parseUint, formatUint, read]

/-- With base 0 and no prefix, `ParseUint` reads a string of digits as the base-10
loop does. -/
theorem parseDigitsBase_ofDigitChars {maxVal : ℕ} (bounded : maxVal < 2 ^ 64) :
    ∀ (cs : List Char) (acc : ℕ), (∀ c ∈ cs, isDigit c = true) →
      Nat.ofDigitChars 10 cs acc ≤ maxVal →
      parseDigitsBase 10 maxVal true acc false cs = .ok (Nat.ofDigitChars 10 cs acc, false)
  | [], acc, _, _ => by simp [parseDigitsBase]
  | c :: rest, acc, digits, fits => by
    rw [Nat.ofDigitChars_cons] at fits ⊢
    have atLeast := le_ofDigitChars rest (10 * acc + (c.toNat - '0'.toNat))
    have digit := isDigit_iff.mp (digits c List.mem_cons_self)
    have notUnderscore : ¬ (c = '_' ∧ true = true) := by
      rintro ⟨rfl, -⟩
      simp at digit
    have value : digitOrLetterValue c = some (c.toNat - '0'.toNat) := by
      have inRange : '0' ≤ c ∧ c ≤ '9' := by
        simp only [Char.le_def, UInt32.le_iff_toNat_le]
        exact digit
      simp [digitOrLetterValue, inRange]
    simp only [Char.reduceToNat] at digit atLeast fits value ⊢
    rw [parseDigitsBase, if_neg notUnderscore, value]
    dsimp only
    rw [if_neg (by omega), if_neg (by omega), if_neg (by omega),
      show acc * 10 + (c.toNat - 48) = 10 * acc + (c.toNat - 48) by ring]
    exact parseDigitsBase_ofDigitChars bounded rest _
      (fun c member => digits c (List.mem_cons_of_mem _ member)) fits

/-- `ParseUint` with base 0 reads back what `FormatUint` writes: a positive
number has no leading zero, so no prefix is taken, and zero reads as octal. -/
theorem parseUintBase0_formatUint {bitSize n : ℕ} (wide : bitSize ≤ 64) (fits : n < 2 ^ bitSize) :
    parseUintBase0 (formatUint n) bitSize = .ok n := by
  rcases Nat.eq_zero_or_pos n with zero | positive
  · subst zero
    simp [parseUintBase0, formatUint, Nat.toDigits_zero, readBase, parseDigitsBase]
  · have widest : 2 ^ bitSize ≤ 2 ^ 64 := Nat.pow_le_pow_right (by decide) wide
    obtain ⟨c, rest, written, nonzero⟩ := formatUint_head_ne_zero positive
    have decimal : readBase (c :: rest) = (10, c :: rest) := by
      unfold readBase
      split <;> simp_all
    have read := parseDigitsBase_ofDigitChars (by omega : 2 ^ bitSize - 1 < 2 ^ 64)
      (formatUint n) 0 (fun c member => isDigit_of_mem_formatUint member)
      (by simp only [formatUint, Nat.ofDigitChars_ten_toDigits]; omega)
    simp only [formatUint, Nat.ofDigitChars_ten_toDigits] at read written
    rw [formatUint, parseUintBase0, written, decimal]
    simp only [List.isEmpty_cons, Bool.false_eq_true, if_false]
    rw [← written, read]
    simp

/-- `strings.Cut(s, sep)` for a one-character separator: the text before and
after its first occurrence, and whether it occurs. -/
def cut (s : List Char) (sep : Char) : List Char × List Char × Bool :=
  match s.idxOf? sep with
  | some idx => (s.take idx, s.drop (idx + 1), true)
  | none => (s, [], false)

/-- `unicode.IsSpace`: the Latin-1 spaces and the Unicode `White_Space`
characters outside Latin-1. -/
def isSpace (c : Char) : Bool :=
  c = '\t' || c = '\n' || c = '\x0b' || c = '\x0c' || c = '\r' || c = ' ' ||
    c.toNat = 0x85 || c.toNat = 0xA0 || c.toNat = 0x1680 ||
    (0x2000 ≤ c.toNat && c.toNat ≤ 0x200a) || c.toNat = 0x2028 || c.toNat = 0x2029 ||
    c.toNat = 0x202f || c.toNat = 0x205f || c.toNat = 0x3000

/-- `strings.TrimSpace`: drop leading and trailing white space. -/
def trimSpace (s : List Char) : List Char :=
  (s.dropWhile isSpace).rdropWhile isSpace

theorem isSpace_of_isDigit {c : Char} (digit : isDigit c = true) : isSpace c = false := by
  have bounds := isDigit_iff.mp digit
  have table : ∀ n : Fin 10, isSpace (Char.ofNat (48 + n)) = false := by decide
  have := table ⟨c.toNat - 48, by omega⟩
  simpa [show 48 + (c.toNat - 48) = c.toNat by omega, Char.ofNat_toNat] using this

/-- A digit is none of the separators that printers put between numbers. -/
theorem separators_of_isDigit {c : Char} (digit : isDigit c = true) :
    c ≠ ',' ∧ c ≠ ':' ∧ c ≠ '-' ∧ c ≠ '/' ∧ isSpace c = false := by
  have bounds := isDigit_iff.mp digit
  refine ⟨?_, ?_, ?_, ?_, isSpace_of_isDigit digit⟩ <;>
  · rintro rfl
    simp at bounds

theorem trimSpace_of_forall {s : List Char} (noSpace : ∀ c ∈ s, isSpace c = false) :
    trimSpace s = s := by
  have dropped : s.dropWhile isSpace = s :=
    List.dropWhile_eq_self_iff.mpr fun nonempty => by
      simp [noSpace _ (List.getElem_mem nonempty)]
  rw [trimSpace, dropped]
  exact List.rdropWhile_eq_self_iff.mpr fun nonempty => by
    simp [noSpace _ (List.getLast_mem nonempty)]

theorem idxOf?_append_cons {a b : List Char} {sep : Char} (noSep : sep ∉ a) :
    (a ++ sep :: b).idxOf? sep = some a.length := by
  induction a with
  | nil => simp [List.idxOf?_cons]
  | cons c rest inductionHypothesis =>
    have different : c ≠ sep := fun same => noSep (same ▸ List.mem_cons_self)
    rw [List.cons_append, List.idxOf?_cons,
      inductionHypothesis (fun member => noSep (List.mem_cons_of_mem c member))]
    simp [different]

/-- `strings.Cut` stops at the first separator. -/
theorem cut_append {a b : List Char} {sep : Char} (noSep : sep ∉ a) :
    cut (a ++ sep :: b) sep = (a, b, true) := by
  simp [cut, idxOf?_append_cons noSep]

theorem cut_of_not_mem {s : List Char} {sep : Char} (noSep : sep ∉ s) :
    cut s sep = (s, [], false) := by
  simp [cut, List.idxOf?_eq_none_iff.mpr noSep]

end Vitess.Go
