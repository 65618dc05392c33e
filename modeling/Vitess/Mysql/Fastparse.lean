import Mathlib.Data.List.Basic
import Mathlib.Data.List.DropRight
import Vitess.Go.Int64
import Vitess.Go.Strconv

/-!
# `fastparse.ParseUint64` and `fastparse.ParseInt64`

`parseUint64` and `ParseInt64` of `go/mysql/fastparse/fastparse.go`. Leading
and trailing blanks (space and tab only) are skipped; a minus sign is accepted
by `ParseInt64`, and by `parseUint64` only when `allowNeg`, where it negates the
value modulo `2^64`; digits run up to the first byte that is not a digit of the
base; a value that leaves the type is an overflow. On failure both also return
a best-effort value, which `parseUint64Result` and `ParseInt64` keep beside the
error. The text is a list of bytes, one `Char` each.

The cutoff of each source's `switch base` is the same expression in all its
arms, `math.MaxUint64/base + 1` and `math.MaxInt64/base + 1`.

`ParseInt64_spec` and `ParseUint64Result_spec` say what both return in terms of
what a reader sees (`unsigned`, `isDigitOf`, `digitsValue`), and that an input
they accept is one `strconv.ParseInt` and `strconv.ParseUint` read the same way
once its blanks are trimmed (`Vitess.Go.parseIntBase`).
-/

namespace Vitess.Fastparse

/-- The errors of `parseUint64`, by the message each one formats. -/
inductive ParseUintError where
  /-- "cannot parse uint64 from empty string" -/
  | emptyString
  /-- "invalid base %d; must be in [2, 36]" -/
  | invalidBase (base : ℕ)
  /-- "cannot parse uint64 from %q" -/
  | cannotParse (s : List Char)
  /-- "cannot parse uint64 from %q: overflow" -/
  | overflow (s : List Char)
  /-- "unparsed tail left after parsing uint64 from %q: %q" -/
  | unparsedTail (s tail : List Char)
  deriving DecidableEq, Repr

/-- `isSpace`: a space or a tab. -/
def isSpace (c : Char) : Bool :=
  c = ' ' || c = '\t'

/-- The digit a byte stands for in bases up to 36. -/
def digitOf (c : Char) : Option ℕ :=
  if '0' ≤ c ∧ c ≤ '9' then some (c.toNat - '0'.toNat)
  else if 'a' ≤ c ∧ c ≤ 'z' then some (c.toNat - 'a'.toNat + 10)
  else if 'A' ≤ c ∧ c ≤ 'Z' then some (c.toNat - 'A'.toNat + 10)
  else none

/-- `uValue`: the two's complement of the magnitude when negative. -/
def uValue (v : ℕ) (neg : Bool) : ℕ :=
  if neg then (2 ^ 64 - v) % 2 ^ 64 else v

/-- The digit loop: the value read and the bytes left, or an overflow of `s`. -/
def parseDigits (base : ℕ) (s : List Char) : ℕ → List Char → Except ParseUintError (ℕ × List Char)
  | d, [] => .ok (d, [])
  | d, c :: rest =>
    match digitOf c with
    | none => .ok (d, c :: rest)
    | some b =>
      if b ≥ base then .ok (d, c :: rest)
      else if d ≥ (2 ^ 64 - 1) / base + 1 then .error (.overflow s)
      else
        let v := (d * base + b) % 2 ^ 64
        if v < d then .error (.overflow s) else parseDigits base s v rest

/-- `parseUint64(s, base, allowNeg)`. -/
def parseUint64 (s : List Char) (base : ℕ) (allowNeg : Bool) : Except ParseUintError ℕ :=
  if s.isEmpty then .error .emptyString
  else if base < 2 ∨ base > 36 then .error (.invalidBase base)
  else
    match s.dropWhile isSpace with
    | [] => .error (.cannotParse s)
    | c :: rest =>
      let minus := c = '-'
      if minus ∧ allowNeg = false then .error (.cannotParse s)
      else if minus ∧ rest = [] then .error (.cannotParse s)
      else
        let digits := if minus then rest else c :: rest
        match parseDigits base s 0 digits with
        | .error err => .error err
        | .ok (d, tail) =>
          -- `i <= j`: not one digit was read
          if tail.length = digits.length then .error (.cannotParse s)
          else
            match tail.dropWhile isSpace with
            | [] => .ok (uValue d minus)
            | left => .error (.unparsedTail s left)

/-- `ParseUint64`: no minus sign. -/
def ParseUint64 (s : List Char) (base : ℕ) : Except ParseUintError ℕ :=
  parseUint64 s base false

/-- `ParseUint64` never accepts a leading minus sign. -/
theorem parseUint64_minus (rest : List Char) (base : ℕ) (validBase : 2 ≤ base ∧ base ≤ 36) :
    ParseUint64 ('-' :: rest) base = .error (.cannotParse ('-' :: rest)) := by
  have notBelow : ¬ (base < 2 ∨ base > 36) := by omega
  rw [ParseUint64, parseUint64, if_neg (by simp), if_neg notBelow]
  simp [isSpace]

/-! ## The best-effort value

On an error both parsers also return a value: what was read so far, or the bound
an overflowing value passed. `parseUint64Result` and `ParseInt64` return it with
the error; `parseUint64` above is `parseUint64Result` without the value
(`parseUint64_eq_result`).
-/

/-- The errors of `ParseInt64`, by the message each one formats. -/
inductive ParseIntError where
  /-- "cannot parse int64 from empty string" -/
  | emptyString
  /-- "invalid base %d; must be in [2, 36]" -/
  | invalidBase (base : ℕ)
  /-- "cannot parse int64 from %q" -/
  | cannotParse (s : List Char)
  /-- "cannot parse int64 from %q: overflow" -/
  | overflow (s : List Char)
  /-- "unparsed tail left after parsing int64 from %q: %q" -/
  | unparsedTail (s tail : List Char)
  deriving DecidableEq, Repr

/-- The digit loop of `parseUint64`, with the value an overflow returns: `0`
after a minus sign and `math.MaxUint64` otherwise. -/
def parseDigitsResult (base : ℕ) (s : List Char) (minus : Bool) :
    ℕ → List Char → Except (ℕ × ParseUintError) (ℕ × List Char)
  | d, [] => .ok (d, [])
  | d, c :: rest =>
    match digitOf c with
    | none => .ok (d, c :: rest)
    | some b =>
      if b ≥ base then .ok (d, c :: rest)
      else if d ≥ (2 ^ 64 - 1) / base + 1 then .error (if minus then 0 else 2 ^ 64 - 1, .overflow s)
      else
        let v := (d * base + b) % 2 ^ 64
        if v < d then .error (if minus then 0 else 2 ^ 64 - 1, .overflow s)
        else parseDigitsResult base s minus v rest

/-- `parseUint64` from the digit loop on, with the value it returns: `digits` is
the text after the blanks and the minus sign. -/
def uint64FromDigits (base : ℕ) (s : List Char) (minus : Bool) (digits : List Char) :
    ℕ × Option ParseUintError :=
  match parseDigitsResult base s minus 0 digits with
  | .error (v, err) => (v, some err)
  | .ok (d, tail) =>
    -- `i <= j`: not one digit was read
    if tail.length = digits.length then (uValue d minus, some (.cannotParse s))
    else
      match tail.dropWhile isSpace with
      | [] => (uValue d minus, none)
      | left => (uValue d minus, some (.unparsedTail s left))

/-- `parseUint64(s, base, allowNeg)` with the value it returns. -/
def parseUint64Result (s : List Char) (base : ℕ) (allowNeg : Bool) : ℕ × Option ParseUintError :=
  if s.isEmpty then (0, some .emptyString)
  else if base < 2 ∨ base > 36 then (0, some (.invalidBase base))
  else
    match s.dropWhile isSpace with
    | [] => (0, some (.cannotParse s))
    | c :: rest =>
      let minus := c = '-'
      if minus ∧ allowNeg = false then (0, some (.cannotParse s))
      else if minus ∧ rest = [] then (0, some (.cannotParse s))
      else uint64FromDigits base s minus (if minus then rest else c :: rest)

def ParseUint64Result (s : List Char) (base : ℕ) : ℕ × Option ParseUintError :=
  parseUint64Result s base false

/-- The digit loop of `ParseInt64`, with the value an overflow returns. The
cutoff is `math.MaxInt64/base + 1`; after a minus sign the value may reach the
cutoff itself, since `math.MinInt64` has no positive counterpart. -/
def parseIntDigits (base : ℕ) (s : List Char) (minus : Bool) :
    ℕ → List Char → Except (ℤ × ParseIntError) (ℕ × List Char)
  | d, [] => .ok (d, [])
  | d, c :: rest =>
    match digitOf c with
    | none => .ok (d, c :: rest)
    | some b =>
      if b ≥ base then .ok (d, c :: rest)
      else if !minus ∧ d ≥ (2 ^ 63 - 1) / base + 1 then .error (2 ^ 63 - 1, .overflow s)
      else if minus ∧ d > (2 ^ 63 - 1) / base + 1 then .error (-2 ^ 63, .overflow s)
      else parseIntDigits base s minus ((d * base + b) % 2 ^ 64) rest

/-- `ParseInt64` from the digit loop on: `digits` is the text after the blanks
and the minus sign. -/
def int64FromDigits (base : ℕ) (s : List Char) (minus : Bool) (digits : List Char) :
    ℤ × Option ParseIntError :=
  match parseIntDigits base s minus 0 digits with
  | .error (v, err) => (v, some err)
  | .ok (d, tail) =>
    if d > 2 ^ 63 - 1 ∧ !minus then (2 ^ 63 - 1, some (.overflow s))
    else if d > 2 ^ 63 ∧ minus then (-2 ^ 63, some (.overflow s))
    else
      -- `v := int64(d)`, negated after a minus sign; `math.MinInt64` for `d = 2^63`
      let v := if minus then (if d = 2 ^ 63 then -2 ^ 63 else Go.wrapInt64 (-Go.toInt64 d))
        else Go.toInt64 d
      if tail.length = digits.length then (v, some (.cannotParse s))
      else
        match tail.dropWhile isSpace with
        | [] => (v, none)
        | left => (v, some (.unparsedTail s left))

/-- `ParseInt64(s, base)` with the value it returns. -/
def ParseInt64 (s : List Char) (base : ℕ) : ℤ × Option ParseIntError :=
  if s.isEmpty then (0, some .emptyString)
  else if base < 2 ∨ base > 36 then (0, some (.invalidBase base))
  else
    match s.dropWhile isSpace with
    | [] => (0, some (.cannotParse s))
    | c :: rest =>
      let minus := c = '-'
      if minus ∧ rest = [] then (0, some (.cannotParse s))
      else int64FromDigits base s minus (if minus then rest else c :: rest)

theorem parseDigits_eq_result (base : ℕ) (s : List Char) (minus : Bool) :
    ∀ (d : ℕ) (cs : List Char),
      parseDigits base s d cs = (parseDigitsResult base s minus d cs).mapError Prod.snd
  | d, [] => rfl
  | d, c :: rest => by
    cases digit : digitOf c with
    | none => simp [parseDigits, parseDigitsResult, digit, Except.mapError]
    | some b =>
      by_cases high : b ≥ base
      · simp [parseDigits, parseDigitsResult, digit, high, Except.mapError]
      by_cases cut : d ≥ (2 ^ 64 - 1) / base + 1
      · simp only [parseDigits, parseDigitsResult, digit, high, if_false, if_pos cut, Except.mapError]
      by_cases wrap : (d * base + b) % 2 ^ 64 < d
      · simp only [parseDigits, parseDigitsResult, digit, high, if_false, if_neg cut, if_pos wrap,
          Except.mapError]
      · simp only [parseDigits, parseDigitsResult, digit, high, cut, wrap, if_false]
        exact parseDigits_eq_result base s minus _ rest

/-- `parseUint64` is `parseUint64Result` without the best-effort value. -/
theorem parseUint64_eq_result (s : List Char) (base : ℕ) (allowNeg : Bool) :
    parseUint64 s base allowNeg =
      match parseUint64Result s base allowNeg with
      | (v, none) => .ok v
      | (_, some err) => .error err := by
  unfold parseUint64 parseUint64Result
  split_ifs
  · rfl
  · rfl
  · split
    · rfl
    · dsimp only
      split_ifs
      · rfl
      · rfl
      -- the digits follow the minus sign, or start at the first byte
      all_goals
        rw [uint64FromDigits, parseDigits_eq_result base s (decide (_ = '-'))]
        cases parseDigitsResult base s _ 0 _ with
        | error failure => rfl
        | ok read =>
          simp only [Except.mapError]
          split_ifs
          · rfl
          · split <;> rfl

/-! ## What the parsers read

The spec lemmas of both parsers (`ParseInt64_spec`, `ParseUint64Result_spec`)
speak of what a reader of the input sees: the text after leading blanks and an
optional minus sign (`unsigned`), the run of digits of the base at its front
(`digitRun`), and the value of that run (`digitsValue`).
-/

/-- A digit of `base`, letters in either case. -/
def isDigitOf (base : ℕ) (c : Char) : Bool := (digitOf c).any (· < base)

/-- The value of digits read after `init`. -/
def digitsValue (base init : ℕ) (digits : List Char) : ℕ :=
  digits.foldl (fun n c => n * base + (digitOf c).getD 0) init

/-- Whether a minus sign follows the leading blanks, and the text after it. -/
def unsigned (s : List Char) : Bool × List Char :=
  match s.dropWhile isSpace with
  | '-' :: rest => (true, rest)
  | body => (false, body)

/-- The run of digits of `base` after the blanks and the sign. -/
def digitRun (base : ℕ) (s : List Char) : List Char :=
  (unsigned s).2.takeWhile (isDigitOf base)

/-- The value of `digitRun`, negated after a minus sign. -/
def signedValue (base : ℕ) (s : List Char) : ℤ :=
  if (unsigned s).1 then -(digitsValue base 0 (digitRun base s) : ℤ) else digitsValue base 0 (digitRun base s)

/-- Only blanks follow `digitRun`. -/
def BlanksAfter (base : ℕ) (s : List Char) : Prop :=
  ∀ c ∈ (unsigned s).2.dropWhile (isDigitOf base), isSpace c = true

instance (base : ℕ) (s : List Char) : Decidable (BlanksAfter base s) :=
  inferInstanceAs (Decidable (∀ c ∈ _, _))

/-- The input without its leading and trailing blanks. -/
def trimBlanks (s : List Char) : List Char :=
  (s.dropWhile isSpace).rdropWhile isSpace

section Reading

variable {base : ℕ}

theorem isDigitOf_iff {c : Char} : isDigitOf base c = true ↔ ∃ b, digitOf c = some b ∧ b < base := by
  cases digit : digitOf c <;> simp [isDigitOf, digit]

theorem isDigitOf_of_digitOf {c : Char} {b : ℕ} (digit : digitOf c = some b) (below : b < base) :
    isDigitOf base c = true :=
  isDigitOf_iff.mpr ⟨b, digit, below⟩

theorem digitsValue_cons_of_digitOf {c : Char} {b : ℕ} (digit : digitOf c = some b) (init : ℕ)
    (rest : List Char) : digitsValue base init (c :: rest) = digitsValue base (init * base + b) rest := by
  simp [digitsValue, digit]

theorem le_digitsValue (positive : 0 < base) (init : ℕ) (digits : List Char) :
    init ≤ digitsValue base init digits :=
  Go.le_foldl_mul_add positive _ digits init

/-- The digit loop of `parseUint64` reads the run of digits at the front, a
`uint64` value, unless it stops at an overflow, which only a value past
`math.MaxUint64` reaches. -/
theorem parseDigitsResult_spec (validBase : 2 ≤ base ∧ base ≤ 36) (s : List Char) (minus : Bool) :
    ∀ (cs : List Char) (d : ℕ), d ≤ 2 ^ 64 - 1 →
      (parseDigitsResult base s minus d cs =
          .ok (digitsValue base d (cs.takeWhile (isDigitOf base)), cs.dropWhile (isDigitOf base)) ∧
          digitsValue base d (cs.takeWhile (isDigitOf base)) ≤ 2 ^ 64 - 1) ∨
        parseDigitsResult base s minus d cs = .error (if minus then 0 else 2 ^ 64 - 1, .overflow s) ∧
          2 ^ 64 - 1 < digitsValue base d (cs.takeWhile (isDigitOf base))
  | [], d, start => .inl ⟨rfl, start⟩
  | c :: rest, d, start => by
    cases digit : digitOf c with
    | none =>
      have notDigit : isDigitOf base c = false := by simp [isDigitOf, digit]
      left
      simpa [parseDigitsResult, digit, notDigit, digitsValue] using start
    | some b =>
      by_cases high : b ≥ base
      · have notDigit : isDigitOf base c = false := by simp [isDigitOf, digit]; omega
        left
        simpa [parseDigitsResult, digit, high, notDigit, digitsValue] using start
      rw [List.takeWhile_cons_of_pos (isDigitOf_of_digitOf digit (by omega)),
        List.dropWhile_cons_of_pos (isDigitOf_of_digitOf digit (by omega)),
        digitsValue_cons_of_digitOf digit]
      have atLeast := @le_digitsValue base (by omega) (d * base + b) (rest.takeWhile (isDigitOf base))
      have scaled : d * base ≤ d * 36 := Nat.mul_le_mul_left d validBase.2
      by_cases cut : d ≥ (2 ^ 64 - 1) / base + 1
      · -- `d * base` already passes `math.MaxUint64`
        have past : 2 ^ 64 - 1 < d * base := (Nat.div_lt_iff_lt_mul (by omega)).mp (by omega)
        right
        refine ⟨?_, by omega⟩
        simp only [parseDigitsResult, digit, if_neg high, if_pos cut]
      have fits : d * base ≤ 2 ^ 64 - 1 := (Nat.le_div_iff_mul_le (by omega)).mp (by omega)
      by_cases wrap : (d * base + b) % 2 ^ 64 < d
      · -- a value below `d` can only come from a carry out of 64 bits
        right
        refine ⟨by simp only [parseDigitsResult, digit, if_neg high, if_neg cut, if_pos wrap], ?_⟩
        by_contra within
        have grows : d ≤ d * base := Nat.le_mul_of_pos_right d (by omega)
        rw [Nat.mod_eq_of_lt (by omega)] at wrap
        omega
      · have exact : (d * base + b) % 2 ^ 64 = d * base + b := by
          by_contra carried
          have overflows : 2 ^ 64 ≤ d * base + b := by
            by_contra small
            exact carried (Nat.mod_eq_of_lt (by omega))
          omega
        have step : parseDigitsResult base s minus d (c :: rest) =
            parseDigitsResult base s minus (d * base + b) rest := by
          have grows : d ≤ d * base := Nat.le_mul_of_pos_right d (by omega)
          simp only [parseDigitsResult, digit, if_neg high, if_neg cut, exact,
            if_neg (show ¬ d * base + b < d by omega)]
        rw [step]
        have below : d * base + b ≤ 2 ^ 64 - 1 := by
          have := Nat.mod_lt (d * base + b) (Nat.two_pow_pos 64)
          omega
        exact parseDigitsResult_spec validBase s minus rest (d * base + b) below

/-- The digit loop of `ParseInt64` reads the run of digits at the front, unless
it stops at an overflow, which only a value past `math.MaxInt64` (or, after a
minus sign, past `2^63`) reaches. -/
theorem parseIntDigits_spec (validBase : 2 ≤ base ∧ base ≤ 36) (s : List Char) (minus : Bool) :
    ∀ (cs : List Char) (d : ℕ),
      parseIntDigits base s minus d cs =
          .ok (digitsValue base d (cs.takeWhile (isDigitOf base)), cs.dropWhile (isDigitOf base)) ∨
        parseIntDigits base s minus d cs = .error (if minus then -2 ^ 63 else 2 ^ 63 - 1, .overflow s) ∧
          (if minus then 2 ^ 63 else 2 ^ 63 - 1) < digitsValue base d (cs.takeWhile (isDigitOf base))
  | [], d => .inl rfl
  | c :: rest, d => by
    cases digit : digitOf c with
    | none =>
      have notDigit : isDigitOf base c = false := by simp [isDigitOf, digit]
      left
      simp [parseIntDigits, digit, notDigit, digitsValue]
    | some b =>
      by_cases high : b ≥ base
      · have notDigit : isDigitOf base c = false := by simp [isDigitOf, digit]; omega
        left
        simp [parseIntDigits, digit, high, notDigit, digitsValue]
      rw [List.takeWhile_cons_of_pos (isDigitOf_of_digitOf digit (by omega)),
        List.dropWhile_cons_of_pos (isDigitOf_of_digitOf digit (by omega)),
        digitsValue_cons_of_digitOf digit]
      have atLeast := @le_digitsValue base (by omega) (d * base + b) (rest.takeWhile (isDigitOf base))
      have cutoff : 2 ^ 63 - 1 < ((2 ^ 63 - 1) / base + 1) * base :=
        (Nat.div_lt_iff_lt_mul (by omega)).mp (Nat.lt_succ_self _)
      have cutoffFits : (2 ^ 63 - 1) / base * base ≤ 2 ^ 63 - 1 := Nat.div_mul_le_self _ _
      cases minus with
      | false =>
        by_cases cut : d ≥ (2 ^ 63 - 1) / base + 1
        · have past : ((2 ^ 63 - 1) / base + 1) * base ≤ d * base := Nat.mul_le_mul_right base cut
          right
          refine ⟨?_, by simp only [Bool.false_eq_true, if_false]; omega⟩
          simp only [parseIntDigits, digit, if_neg high, Bool.not_false, true_and, if_pos cut,
            Bool.false_eq_true, if_false]
        · have below : d * base ≤ (2 ^ 63 - 1) / base * base := Nat.mul_le_mul_right base (by omega)
          have step : parseIntDigits base s false d (c :: rest) =
              parseIntDigits base s false (d * base + b) rest := by
            simp only [parseIntDigits, digit, if_neg high, Bool.not_false, true_and, if_neg cut,
              Bool.false_eq_true, false_and, if_false, Nat.mod_eq_of_lt (by omega : d * base + b < 2 ^ 64)]
          rw [step]
          exact parseIntDigits_spec validBase s false rest (d * base + b)
      | true =>
        by_cases cut : d > (2 ^ 63 - 1) / base + 1
        · have past : ((2 ^ 63 - 1) / base + 2) * base ≤ d * base := Nat.mul_le_mul_right base cut
          right
          refine ⟨?_, ?_⟩
          · simp only [parseIntDigits, digit, if_neg high, Bool.not_true, Bool.false_eq_true,
              false_and, if_false, true_and, if_pos cut, if_true]
          simp only [if_true]
          rw [Nat.add_mul] at past
          rw [Nat.add_mul, Nat.one_mul] at cutoff
          omega
        · have below : d * base ≤ ((2 ^ 63 - 1) / base + 1) * base := Nat.mul_le_mul_right base (by omega)
          rw [Nat.add_mul] at below
          have step : parseIntDigits base s true d (c :: rest) =
              parseIntDigits base s true (d * base + b) rest := by
            simp only [parseIntDigits, digit, if_neg high, Bool.not_true, Bool.false_eq_true, false_and,
              true_and, if_false, if_neg cut, Nat.mod_eq_of_lt (by omega : d * base + b < 2 ^ 64)]
          rw [step]
          exact parseIntDigits_spec validBase s true rest (d * base + b)

theorem length_dropWhile_eq_iff {p : Char → Bool} {l : List Char} :
    (l.dropWhile p).length = l.length ↔ l.takeWhile p = [] := by
  have whole := congrArg List.length (List.takeWhile_append_dropWhile (p := p) (l := l))
  rw [List.length_append] at whole
  rw [← List.length_eq_zero_iff]
  omega

/-- The value `ParseInt64` builds from a magnitude in range. -/
theorem signedValue_eq {d : ℕ} {minus : Bool} (fits : d ≤ if minus then 2 ^ 63 else 2 ^ 63 - 1) :
    (if minus = true then (if d = 2 ^ 63 then -2 ^ 63 else Go.wrapInt64 (-Go.toInt64 d))
      else Go.toInt64 d) = if minus then -(d : ℤ) else d := by
  cases minus with
  | false =>
    simp only [Bool.false_eq_true, if_false, Nat.reducePow, Nat.reduceSub] at fits ⊢
    have inRange : Go.InInt64 (d : ℤ) := by
      simp only [Go.InInt64, Int.reducePow, Int.reduceNeg]
      omega
    exact Go.wrapInt64_of_inInt64 inRange
  | true =>
    simp only [if_true] at fits ⊢
    by_cases top : d = 2 ^ 63
    · rw [if_pos top, top]
      push_cast
    · have magnitude : Go.InInt64 (d : ℤ) := by
        simp only [Go.InInt64, Int.reducePow, Int.reduceNeg]
        omega
      have negated : Go.InInt64 (-(d : ℤ)) := by
        simp only [Go.InInt64, Int.reducePow, Int.reduceNeg]
        omega
      rw [if_neg top, Go.toInt64, Go.wrapInt64_of_inInt64 magnitude]
      exact Go.wrapInt64_of_inInt64 negated

/-- A magnitude past the `int64` range on its side clamps to that side's bound. -/
theorem clamp_past {V : ℕ} {minus : Bool} (past : (if minus then 2 ^ 63 else 2 ^ 63 - 1) < V) :
    (if minus then -2 ^ 63 else 2 ^ 63 - 1 : ℤ) =
        max (-2 ^ 63) (min (if minus then -(V : ℤ) else V) (2 ^ 63 - 1)) ∧
      ¬ Go.InInt64 (if minus then -(V : ℤ) else V) := by
  cases minus <;>
  · simp only [Go.InInt64, Bool.false_eq_true, if_true, if_false, Nat.reducePow, Nat.reduceSub,
      Int.reducePow, Int.reduceNeg, Int.reduceSub] at past ⊢
    omega

theorem clamp_of_inInt64 {N : ℤ} (inRange : Go.InInt64 N) : max (-2 ^ 63) (min N (2 ^ 63 - 1)) = N := by
  simp only [Go.InInt64] at inRange
  omega

/-- `ParseInt64` after the sign: the clamped value of the digits at the front,
and no error exactly when there are digits, their value is an `int64` and only
blanks follow them. -/
theorem int64FromDigits_spec (validBase : 2 ≤ base ∧ base ≤ 36) (s : List Char) (minus : Bool)
    (digits : List Char) :
    let D := digits.takeWhile (isDigitOf base)
    let N : ℤ := if minus then -(digitsValue base 0 D : ℤ) else digitsValue base 0 D
    (D ≠ [] → (int64FromDigits base s minus digits).1 = max (-2 ^ 63) (min N (2 ^ 63 - 1))) ∧
      ((int64FromDigits base s minus digits).2 = none ↔
        D ≠ [] ∧ Go.InInt64 N ∧ ∀ c ∈ digits.dropWhile (isDigitOf base), isSpace c = true) := by
  intro D N
  unfold int64FromDigits
  rcases parseIntDigits_spec validBase s minus digits 0 with read | ⟨read, past⟩
  · rw [read]
    dsimp only
    by_cases high : digitsValue base 0 D > 2 ^ 63 - 1 ∧ !minus
    · -- past `math.MaxInt64`: caught after the loop
      obtain ⟨overflows, positive⟩ := high
      obtain rfl : minus = false := by simpa using positive
      obtain ⟨clamped, outside⟩ := @clamp_past _ false overflows
      rw [if_pos ⟨overflows, rfl⟩]
      refine ⟨fun _ => clamped, ?_⟩
      simp only [reduceCtorEq, false_iff, not_and]
      exact fun _ inRange => absurd inRange outside
    by_cases low : digitsValue base 0 D > 2 ^ 63 ∧ minus
    · obtain ⟨overflows, negative⟩ := low
      obtain rfl : minus = true := negative
      obtain ⟨clamped, outside⟩ := @clamp_past _ true overflows
      rw [if_neg high, if_pos ⟨overflows, rfl⟩]
      refine ⟨fun _ => clamped, ?_⟩
      simp only [reduceCtorEq, false_iff, not_and]
      exact fun _ inRange => absurd inRange outside
    -- in range: the value is the signed magnitude
    have fits : digitsValue base 0 D ≤ if minus then 2 ^ 63 else 2 ^ 63 - 1 := by
      cases minus <;> simp_all
    have inRange : Go.InInt64 N := by
      cases minus <;>
      · simp only [N, Go.InInt64, Bool.false_eq_true, if_true, if_false, Nat.reducePow,
          Nat.reduceSub, Int.reducePow, Int.reduceNeg] at fits ⊢
        omega
    rw [if_neg high, if_neg low, signedValue_eq fits, clamp_of_inInt64 inRange]
    by_cases empty : D = []
    · rw [if_pos (length_dropWhile_eq_iff.mpr empty)]
      simp [empty]
    · rw [if_neg (mt length_dropWhile_eq_iff.mp empty)]
      refine ⟨fun _ => by split <;> rfl, ?_⟩
      rw [← List.dropWhile_eq_nil_iff]
      split <;> simp_all
  · -- stopped inside the loop at the bound the value passed
    rw [read]
    obtain ⟨clamped, outside⟩ := clamp_past past
    refine ⟨fun _ => clamped, ?_⟩
    simp only [reduceCtorEq, false_iff, not_and]
    exact fun _ inRange => absurd inRange outside

/-- `parseUint64` after the blanks, with no minus sign: the value of the digits
at the front capped at `math.MaxUint64`, and no error exactly when there are
digits, their value is a `uint64` and only blanks follow them. -/
theorem uint64FromDigits_spec (validBase : 2 ≤ base ∧ base ≤ 36) (s : List Char)
    (digits : List Char) :
    let D := digits.takeWhile (isDigitOf base)
    (uint64FromDigits base s false digits).1 = min (digitsValue base 0 D) (2 ^ 64 - 1) ∧
      ((uint64FromDigits base s false digits).2 = none ↔
        D ≠ [] ∧ digitsValue base 0 D ≤ 2 ^ 64 - 1 ∧
          ∀ c ∈ digits.dropWhile (isDigitOf base), isSpace c = true) := by
  intro D
  unfold uint64FromDigits
  rcases parseDigitsResult_spec validBase s false digits 0 (Nat.zero_le _) with
    ⟨read, fits⟩ | ⟨read, past⟩
  · rw [read]
    dsimp only
    have capped : min (digitsValue base 0 D) (2 ^ 64 - 1) = digitsValue base 0 D := min_eq_left fits
    simp only [uValue, Bool.false_eq_true, if_false, capped]
    by_cases empty : D = []
    · rw [if_pos (length_dropWhile_eq_iff.mpr empty)]
      simp [D, show digits.takeWhile (isDigitOf base) = [] from empty]
    · rw [if_neg (mt length_dropWhile_eq_iff.mp empty)]
      refine ⟨by split <;> rfl, ?_⟩
      rw [← List.dropWhile_eq_nil_iff]
      split <;> simp_all
  · -- stopped inside the loop at `math.MaxUint64`
    rw [read]
    have overflows : 2 ^ 64 - 1 < digitsValue base 0 D := past
    refine ⟨?_, ?_⟩
    · simp only [Bool.false_eq_true, if_false]
      omega
    · simp only [reduceCtorEq, false_iff, not_and]
      exact fun _ within => absurd within (by omega)

/-- Every digit is below `'{'`, so a table over the codes below 123 covers it. -/
theorem toNat_lt_of_digitOf {c : Char} {b : ℕ} (digit : digitOf c = some b) : c.toNat < 123 := by
  unfold digitOf at digit
  simp only [Char.le_def, UInt32.le_iff_toNat_le] at digit
  have nine : ('9' : Char).val.toNat = 57 := rfl
  have zed : ('z' : Char).val.toNat = 122 := rfl
  have upperZed : ('Z' : Char).val.toNat = 90 := rfl
  show c.val.toNat < 123
  split_ifs at digit with numeral lowerCase upperCase <;> omega

/-- `strconv` reads a digit through `lower`, setting bit `0x20`; on the digits
`fastparse` reads it gives the same value. -/
theorem digitOrLetterValue_of_digitOf {c : Char} {b : ℕ} (digit : digitOf c = some b) :
    Go.digitOrLetterValue c = some b := by
  have table : ∀ n : Fin 123, (digitOf (Char.ofNat n)).isSome →
      Go.digitOrLetterValue (Char.ofNat n) = digitOf (Char.ofNat n) := by
    decide +kernel
  have atCode := table ⟨c.toNat, toNat_lt_of_digitOf digit⟩
  rw [Char.ofNat_toNat, digit] at atCode
  exact atCode rfl

theorem digitOf_ne_none {c : Char} (digit : isDigitOf base c = true) : digitOf c ≠ none := by
  obtain ⟨b, read, -⟩ := isDigitOf_iff.mp digit
  simp [read]

/-- Blanks are not digits. -/
theorem isSpace_of_isDigitOf {c : Char} (digit : isDigitOf base c = true) : isSpace c = false := by
  have known := digitOf_ne_none digit
  cases blank : isSpace c
  · rfl
  · have : c = ' ' ∨ c = '\t' := by simpa [isSpace] using blank
    rcases this with rfl | rfl <;> exact absurd (by decide) known

/-- The text after the blanks is the sign followed by what `unsigned` returns. -/
theorem sign_append_unsigned (s : List Char) :
    (if (unsigned s).1 then ['-'] else []) ++ (unsigned s).2 = s.dropWhile isSpace := by
  unfold unsigned
  split <;> simp_all

theorem rdropWhile_append_of_forall {p : Char → Bool} {l blanks : List Char}
    (dropped : ∀ c ∈ blanks, p c = true) : (l ++ blanks).rdropWhile p = l.rdropWhile p := by
  simp only [List.rdropWhile, List.reverse_append,
    List.dropWhile_append_of_pos (fun c member => dropped c (List.mem_reverse.mp member))]

/-- Around digits that only blanks follow, `trimBlanks` keeps the sign and the
digits. -/
theorem trimBlanks_of_digits {s : List Char}
    (nonempty : (unsigned s).2.takeWhile (isDigitOf base) ≠ [])
    (blanks : ∀ c ∈ (unsigned s).2.dropWhile (isDigitOf base), isSpace c = true) :
    trimBlanks s = (if (unsigned s).1 then ['-'] else []) ++ (unsigned s).2.takeWhile (isDigitOf base) := by
  have split : (if (unsigned s).1 then ['-'] else []) ++ (unsigned s).2 =
      ((if (unsigned s).1 then ['-'] else []) ++ (unsigned s).2.takeWhile (isDigitOf base)) ++
        (unsigned s).2.dropWhile (isDigitOf base) := by
    rw [List.append_assoc, List.takeWhile_append_dropWhile]
  rw [trimBlanks, ← sign_append_unsigned, split, rdropWhile_append_of_forall blanks,
    List.rdropWhile_eq_self_iff]
  intro whole
  rw [List.getLast_append_of_ne_nil whole nonempty]
  have digit := List.mem_takeWhile_imp (List.getLast_mem nonempty)
  simp [isSpace_of_isDigitOf digit]

/-- A run of digits that fits 64 bits reads in `strconv.ParseUint` as the value
`fastparse` gives it. -/
theorem parseUintBase_of_digits (validBase : 2 ≤ base ∧ base ≤ 36) {D : List Char} (nonempty : D ≠ [])
    (digits : ∀ c ∈ D, isDigitOf base c = true) (fits : digitsValue base 0 D ≤ 2 ^ 64 - 1) :
    Go.parseUintBase D base 64 = .ok (digitsValue base 0 D) := by
  have valued : ∀ c ∈ D, Go.digitOrLetterValue c = some ((digitOf c).getD 0) ∧ (digitOf c).getD 0 < base := by
    intro c member
    obtain ⟨b, digit, below⟩ := isDigitOf_iff.mp (digits c member)
    simp [digit, digitOrLetterValue_of_digitOf digit, below]
  have read := Go.parseDigitsBase_of_digits (Nat.sub_lt (Nat.two_pow_pos 64) Nat.one_pos)
    (by omega : 0 < base) (fun c => (digitOf c).getD 0) D 0 valued fits
  rw [Go.parseUintBase, if_neg (by simpa using nonempty), read]
  rfl

/-- A signed run of digits in the `int64` range reads in `strconv.ParseInt` as
its signed value. -/
theorem parseIntBase_of_digits (validBase : 2 ≤ base ∧ base ≤ 36) (minus : Bool) {D : List Char}
    (nonempty : D ≠ []) (digits : ∀ c ∈ D, isDigitOf base c = true)
    (inRange : Go.InInt64 (if minus then -(digitsValue base 0 D : ℤ) else digitsValue base 0 D)) :
    Go.parseIntBase ((if minus then ['-'] else []) ++ D) base 64 =
      .ok (if minus then -(digitsValue base 0 D : ℤ) else digitsValue base 0 D) := by
  have bounded : digitsValue base 0 D ≤ if minus then 2 ^ 63 else 2 ^ 63 - 1 := by
    cases minus <;>
    · simp only [Go.InInt64, Bool.false_eq_true, if_true, if_false, Nat.reducePow, Nat.reduceSub,
        Int.reducePow, Int.reduceNeg] at inRange ⊢
      omega
  have fits : digitsValue base 0 D ≤ 2 ^ 64 - 1 := by
    cases minus <;>
    · simp only [Bool.false_eq_true, if_true, if_false, Nat.reducePow, Nat.reduceSub] at bounded ⊢
      omega
  have read := parseUintBase_of_digits validBase nonempty digits fits
  cases minus with
  | true =>
    simp only [if_true, List.singleton_append] at bounded ⊢
    simp only [Go.parseIntBase, or_true, if_true, read]
    simp only [Nat.reduceSub, Nat.reducePow] at bounded ⊢
    rw [if_neg (by simp), if_neg (by simp only [true_and]; omega)]
  | false =>
    obtain ⟨c, rest, rfl⟩ := List.exists_cons_of_ne_nil nonempty
    have notSign : c ≠ '-' ∧ c ≠ '+' := by
      have known := digitOf_ne_none (digits c List.mem_cons_self)
      constructor <;> · rintro rfl; exact known (by decide)
    simp only [Go.parseIntBase, notSign, or_self, if_false, Bool.false_eq_true, List.nil_append, read]
    simp only [Bool.false_eq_true, if_false, Nat.reduceSub, Nat.reducePow] at bounded ⊢
    rw [if_neg (by simp only [decide_false, Bool.not_false, true_and]; omega), if_neg (by simp)]

theorem unsigned_of_dropWhile_nil {s : List Char} (body : s.dropWhile isSpace = []) :
    unsigned s = (false, []) := by
  simp [unsigned, body]

theorem unsigned_of_dropWhile_minus {s rest : List Char} (body : s.dropWhile isSpace = '-' :: rest) :
    unsigned s = (true, rest) := by
  simp [unsigned, body]

theorem unsigned_of_dropWhile_cons {s rest : List Char} {c : Char} (body : s.dropWhile isSpace = c :: rest)
    (sign : c ≠ '-') : unsigned s = (false, c :: rest) := by
  unfold unsigned
  rw [body]
  split
  · rename_i minus
    exact absurd (List.cons.inj minus).1 sign
  · rfl

/-- With a valid base, `ParseInt64` is `int64FromDigits` on what follows the
blanks and the sign; when nothing follows them it fails with the value zero. -/
theorem ParseInt64_eq (validBase : 2 ≤ base ∧ base ≤ 36) (s : List Char) :
    ((unsigned s).2 = [] ∧ (ParseInt64 s base).1 = 0 ∧ (ParseInt64 s base).2 ≠ none) ∨
      ParseInt64 s base = int64FromDigits base s (unsigned s).1 (unsigned s).2 := by
  have notBelow : ¬ (base < 2 ∨ base > 36) := by omega
  by_cases empty : s.isEmpty
  · obtain rfl : s = [] := by simpa using empty
    simp [ParseInt64, unsigned]
  unfold ParseInt64
  rw [if_neg empty, if_neg notBelow]
  cases body : s.dropWhile isSpace with
  | nil => simp [unsigned_of_dropWhile_nil body]
  | cons c rest =>
    by_cases sign : c = '-'
    · subst sign
      rw [unsigned_of_dropWhile_minus body]
      by_cases bare : rest = []
      · simp [bare]
      · simp [bare]
    · rw [unsigned_of_dropWhile_cons body sign]
      simp [sign]

/-- With a valid base, `ParseUint64` fails with the value zero after a minus
sign or when nothing follows the blanks, and is `uint64FromDigits` otherwise. -/
theorem ParseUint64Result_eq (validBase : 2 ≤ base ∧ base ≤ 36) (s : List Char) :
    ((unsigned s).1 = true ∧ ParseUint64Result s base = (0, some (.cannotParse s))) ∨
      ((unsigned s).1 = false ∧ (unsigned s).2 = [] ∧ (ParseUint64Result s base).1 = 0 ∧
        (ParseUint64Result s base).2 ≠ none) ∨
      ((unsigned s).1 = false ∧ ParseUint64Result s base = uint64FromDigits base s false (unsigned s).2) := by
  have notBelow : ¬ (base < 2 ∨ base > 36) := by omega
  by_cases empty : s.isEmpty
  · obtain rfl : s = [] := by simpa using empty
    simp [ParseUint64Result, parseUint64Result, unsigned]
  unfold ParseUint64Result parseUint64Result
  rw [if_neg empty, if_neg notBelow]
  cases body : s.dropWhile isSpace with
  | nil => simp [unsigned_of_dropWhile_nil body]
  | cons c rest =>
    by_cases sign : c = '-'
    · subst sign
      simp [unsigned_of_dropWhile_minus body]
    · rw [unsigned_of_dropWhile_cons body sign]
      simp [sign]

/-- `ParseInt64` over the whole input: the clamped value of the digits after the
blanks and the sign, no error exactly when they are there, fit and only blanks
follow, and then the value `strconv.ParseInt` reads from the trimmed input. -/
theorem ParseInt64_spec (validBase : 2 ≤ base ∧ base ≤ 36) (s : List Char) :
    (digitRun base s ≠ [] → (ParseInt64 s base).1 = max (-2 ^ 63) (min (signedValue base s) (2 ^ 63 - 1))) ∧
      ((ParseInt64 s base).2 = none ↔
        digitRun base s ≠ [] ∧ Go.InInt64 (signedValue base s) ∧ BlanksAfter base s) ∧
      ((ParseInt64 s base).2 = none → Go.parseIntBase (trimBlanks s) base 64 = .ok (ParseInt64 s base).1) := by
  rcases ParseInt64_eq validBase s with ⟨bare, -, failed⟩ | read
  · -- nothing after the blanks and the sign
    have noDigits : digitRun base s = [] := by simp [digitRun, bare]
    refine ⟨fun nonempty => absurd noDigits nonempty, ?_, fun ok => absurd ok failed⟩
    simp [failed, noDigits]
  · obtain ⟨value, error⟩ := int64FromDigits_spec validBase s (unsigned s).1 (unsigned s).2
    rw [read]
    refine ⟨value, error, fun ok => ?_⟩
    obtain ⟨nonempty, inRange, blanks⟩ := error.mp ok
    rw [trimBlanks_of_digits nonempty blanks, value nonempty, clamp_of_inInt64 inRange]
    exact parseIntBase_of_digits validBase _ nonempty (fun c member => List.mem_takeWhile_imp member)
      inRange

/-- `ParseUint64` over the whole input: a minus sign is an error with the value
zero; otherwise the value of the digits capped at `math.MaxUint64`, no error
exactly when they are there, fit and only blanks follow, and then the value
`strconv.ParseUint` reads from the trimmed input. -/
theorem ParseUint64Result_spec (validBase : 2 ≤ base ∧ base ≤ 36) (s : List Char) :
    ((unsigned s).1 = true → ParseUint64Result s base = (0, some (.cannotParse s))) ∧
      ((unsigned s).1 = false →
        (ParseUint64Result s base).1 = min (digitsValue base 0 (digitRun base s)) (2 ^ 64 - 1)) ∧
      ((ParseUint64Result s base).2 = none ↔
        (unsigned s).1 = false ∧ digitRun base s ≠ [] ∧ digitsValue base 0 (digitRun base s) ≤ 2 ^ 64 - 1 ∧
          BlanksAfter base s) ∧
      ((ParseUint64Result s base).2 = none →
        Go.parseUintBase (trimBlanks s) base 64 = .ok (ParseUint64Result s base).1) := by
  rcases ParseUint64Result_eq validBase s with ⟨minus, result⟩ | ⟨plain, bare, zero, failed⟩ |
    ⟨plain, read⟩
  · -- a minus sign
    refine ⟨fun _ => result, fun plain => absurd minus (by simp [plain]), ?_, fun ok => ?_⟩
    · simp [result, minus]
    · simp [result] at ok
  · -- nothing after the blanks
    have noDigits : digitRun base s = [] := by simp [digitRun, bare]
    refine ⟨fun minus => absurd minus (by simp [plain]), fun _ => by simp [zero, noDigits, digitsValue],
      ?_, fun ok => absurd ok failed⟩
    simp [failed, noDigits]
  · obtain ⟨value, error⟩ := uint64FromDigits_spec validBase s (unsigned s).2
    rw [read]
    refine ⟨fun minus => absurd minus (by simp [plain]), fun _ => value, ?_, fun ok => ?_⟩
    · rw [error]
      exact ⟨fun held => ⟨plain, held⟩, fun held => held.2⟩
    · obtain ⟨nonempty, fits, blanks⟩ := error.mp ok
      rw [trimBlanks_of_digits nonempty blanks, value, min_eq_left fits]
      simp only [plain, Bool.false_eq_true, if_false, List.nil_append]
      exact parseUintBase_of_digits validBase nonempty (fun c member => List.mem_takeWhile_imp member) fits

/-- `ParseInt64` and `ParseUint64` return MySQL's best-effort integer. After the
leading blanks and an optional minus sign, `digitRun` is the run of digits of
the base and `signedValue` its signed value. `ParseInt64` returns that value
clamped to `int64` when the run is not empty; `ParseUint64` fails on a minus
sign and otherwise returns the value of the run capped at `math.MaxUint64`.
Either has no error exactly when the run is not empty, the value fits its type
and only blanks follow the run, and then `strconv` reads the input without its
surrounding blanks as the same value. -/
theorem parsers_return_best_effort (validBase : 2 ≤ base ∧ base ≤ 36) (s : List Char) :
    ((digitRun base s ≠ [] →
        (ParseInt64 s base).1 = max (-2 ^ 63) (min (signedValue base s) (2 ^ 63 - 1))) ∧
      ((ParseInt64 s base).2 = none ↔
        digitRun base s ≠ [] ∧ Go.InInt64 (signedValue base s) ∧ BlanksAfter base s) ∧
      ((ParseInt64 s base).2 = none →
        Go.parseIntBase (trimBlanks s) base 64 = .ok (ParseInt64 s base).1)) ∧
    (((unsigned s).1 = true → ParseUint64Result s base = (0, some (.cannotParse s))) ∧
      ((unsigned s).1 = false →
        (ParseUint64Result s base).1 = min (digitsValue base 0 (digitRun base s)) (2 ^ 64 - 1)) ∧
      ((ParseUint64Result s base).2 = none ↔
        (unsigned s).1 = false ∧ digitRun base s ≠ [] ∧ digitsValue base 0 (digitRun base s) ≤ 2 ^ 64 - 1 ∧
          BlanksAfter base s) ∧
      ((ParseUint64Result s base).2 = none →
        Go.parseUintBase (trimBlanks s) base 64 = .ok (ParseUint64Result s base).1)) :=
  ⟨ParseInt64_spec validBase s, ParseUint64Result_spec validBase s⟩

theorem parsers_return_best_effort_negative :
    (2 ≤ 10 ∧ 10 ≤ 36) ∧
      ((ParseInt64 [' ', '-', '4', '2', ' '] 10).2 = none →
        Go.parseIntBase (trimBlanks [' ', '-', '4', '2', ' ']) 10 64 =
          .ok (ParseInt64 [' ', '-', '4', '2', ' '] 10).1) :=
  ⟨by decide, (@parsers_return_best_effort 10 (by decide) [' ', '-', '4', '2', ' ']).1.2.2⟩

end Reading

end Vitess.Fastparse
