import Vitess.Datetime.Time
import Vitess.Go.Int64
import Vitess.Mysql.Fastparse

/-!
# Parsing a `TIME`

`ParseTime` of `go/mysql/datetime/parse.go` and the helpers of `helpers.go` it
calls. A `TIME` is read by one of two sub-parsers: `parsetimeAny` looks for a
space (days before hours) or a colon, and hands the text to the chain
`parsetimeHours`, `parsetimeMinutes`, `parsetimeSeconds`; text with neither goes
to `parsetimeNoDelimiters`, which splits a run of digits into hours, minutes and
seconds from the right. The parts are kept in a `timeparts` record that each
step writes, `TimeParts` here, and a `TimeState` says whether the whole text was
a time (`timeOK`), a time followed by something else (`timePartial`), or no time
(`timeInvalid`).

`clampTimeparts` brings every time past `838:59:59` back to it, but only the
whole part of the seconds, and `ParseTime` rounds the fraction afterwards
(`parseTime_of_nonneg`) with `Time.round`, which carries into the hours with no
limit: every text read as `838:59:59` and a fraction that rounds up comes back as
`839:00:00` (`parseTime_rounds_past_limit`). Without rounding, the fraction kept
at `838:59:59` and hours whose digits wrap the `int` of `getnumn` also leave the
range (`parseTime_unrounded_outside_range`). A string is a list of bytes, `Char`s
here.
-/

namespace Vitess.Datetime

open Go

/-- `TimeState`. -/
inductive TimeState where
  | timeOK
  | timePartial
  | timeInvalid
  deriving DecidableEq, Repr

/-- The fields of `timeparts` that parsing a `TIME` writes. -/
structure TimeParts where
  day : ℤ
  hour : ℤ
  min : ℤ
  sec : ℤ
  nsec : ℤ
  prec : UInt8
  deriving DecidableEq, Repr

/-- The zero `timeparts`. -/
def TimeParts.zero : TimeParts :=
  ⟨0, 0, 0, 0, 0, 0⟩

/-! ## The helpers of `helpers.go` -/

/-- `isSpace` of `spec.go`. -/
def isSpace (c : Char) : Bool :=
  c = ' ' || c = '\t' || c = '\n' || c = '\x0b' || c = '\r'

/-- An ASCII digit. -/
def isDigitChar (c : Char) : Bool :=
  '0' ≤ c && c ≤ '9'

/-- `isDigit(s, i)`. -/
def isDigit (s : List Char) (i : ℕ) : Bool :=
  match s[i]? with
  | some c => isDigitChar c
  | none => false

/-- `int(c - '0')`. -/
def digitValue (c : Char) : ℤ :=
  (c.toNat : ℤ) - '0'.toNat

/-- `getnum(s, fixed)`: one or two digits. -/
def getnum (s : List Char) (fixed : Bool) : ℤ × List Char × Bool :=
  if !isDigit s 0 then (0, s, false)
  else if !isDigit s 1 then
    if fixed then (0, s, false) else (digitValue (s.getD 0 '0'), s.drop 1, true)
  else (digitValue (s.getD 0 '0') * 10 + digitValue (s.getD 1 '0'), s.drop 2, true)

/-- The loop of `getnuml`: the value of the digits `s[i:l]`, or a failure at the
first byte that is not a digit. -/
def getnumlLoop (s : List Char) (l : ℕ) (res : ℤ) : ℕ → Option ℤ
  | 0 => some res
  | count + 1 =>
    let i := l - (count + 1)
    if !isDigit s i then none
    else getnumlLoop s l (wrapInt64 (res * 10 + digitValue (s.getD i '0'))) count

/-- `getnuml(s, l)`: exactly `l` digits. -/
def getnuml (s : List Char) (l : ℕ) : ℤ × List Char × Bool :=
  match getnumlLoop s l 0 l with
  | some res => (res, s.drop l, true)
  | none => (0, s, false)

/-- The loop of `getnumn`: every leading digit, in an `int` that wraps. -/
def getnumnLoop : ℤ → List Char → ℤ × List Char
  | n, [] => (n, [])
  | n, c :: s => if isDigitChar c then getnumnLoop (wrapInt64 (n * 10 + digitValue c)) s else (n, c :: s)

/-- `getnumn(s)`: all the leading digits, at least one. -/
def getnumn (s : List Char) : ℤ × List Char × Bool :=
  match s with
  | c :: _ => if isDigitChar c then let (n, rest) := getnumnLoop 0 s; (n, rest, true) else (0, s, false)
  | [] => (0, s, false)

/-- The loop of `leadingInt`: the value of the leading digits and what follows,
or `none` for an overflow past `2^63`. -/
def leadingIntLoop : ℕ → List Char → Option (ℕ × List Char)
  | x, [] => some (x, [])
  | x, c :: s =>
    if c < '0' ∨ c > '9' then some (x, c :: s)
    else if x > 2 ^ 63 / 10 then none
    else
      let x := (x * 10 + c.toNat - '0'.toNat) % 2 ^ 64
      if x > 2 ^ 63 then none else leadingIntLoop x s

/-- `atoi`: an optional sign and digits filling the whole string. -/
def atoi (s : List Char) : Option ℤ :=
  let (neg, s) :=
    match s with
    | c :: rest => if c = '-' ∨ c = '+' then (c == '-', rest) else (false, s)
    | [] => (false, s)
  match leadingIntLoop 0 s with
  | some (q, []) =>
    let x := toInt64 q
    some (if neg then wrapInt64 (-x) else x)
  | _ => none

/-- `parseNanoseconds(value, nbytes)`: the nanoseconds of the fraction
`value[1:nbytes]`, scaled to nine digits, and its length up to six. -/
def parseNanoseconds (value : List Char) (nbytes : ℕ) : Option (ℤ × ℕ × Bool) := do
  let first ← value.head?
  if first ≠ '.' then return (0, 0, false)
  let (value, nbytes) := if nbytes > 10 then (value.take 10, 10) else (value, nbytes)
  match atoi ((value.take nbytes).drop 1) with
  | none => return (0, 0, false)
  | some ns =>
    if ns < 0 then return (0, 0, false)
    let ns := ns * 10 ^ (10 - nbytes)
    let l := nbytes - 1
    return (ns, min l 6, true)

/-! ## The parser of `parse.go` -/

/-- `clampTimeparts`: a time past `838:59:59` is set to it, the fraction of its
second kept, and a complete parse becomes partial. -/
def clampTimeparts (tp : TimeParts) (state : TimeState) : TimeParts × TimeState :=
  if tp.day > 34 ∨ tp.day = 34 ∧ tp.hour > 22 then
    ({ tp with day := 34, hour := 22, min := 59, sec := 59 },
      if state = .timeOK then .timePartial else state)
  else (tp, state)

/-- The count of bytes of `in` from the `.` through the last digit of the
fraction that follows it. -/
def fractionLength (s : List Char) : ℕ :=
  1 + ((s.drop 1).takeWhile isDigitChar).length

/-- `parsetimeSeconds`. -/
def parsetimeSeconds (tp : TimeParts) (s : List Char) : Option (TimeParts × List Char × TimeState) :=
  let (sec, s, ok) := getnum s false
  let tp := { tp with sec := sec }
  if !ok then some (tp, [], .timePartial)
  else if sec > 59 then some (tp, [], .timeInvalid)
  else if s.length = 0 then some (tp, [], .timeOK)
  else if s.length > 1 ∧ s.head? = some '.' then do
    let n := fractionLength s
    let (nsec, l, ok) ← parseNanoseconds s n
    let tp := { tp with nsec := nsec, prec := UInt8.ofNat l }
    if ok ∧ s.length = n then some (tp, [], .timeOK) else some (tp, [], .timePartial)
  else some (tp, [], .timePartial)

/-- `parsetimeMinutes`. -/
def parsetimeMinutes (tp : TimeParts) (s : List Char) : Option (TimeParts × List Char × TimeState) :=
  let (min, s, ok) := getnum s false
  let tp := { tp with min := min }
  if !ok then some (tp, [], .timePartial)
  else if min > 59 then some (tp, [], .timeInvalid)
  else if s.length = 0 then some (tp, [], .timeOK)
  else if s.head? = some ':' then parsetimeSeconds tp (s.drop 1)
  else some (tp, [], .timePartial)

/-- `parsetimeHours`: the hours past a day are added to the days. -/
def parsetimeHours (tp : TimeParts) (s : List Char) : Option (TimeParts × List Char × TimeState) :=
  let (hour, s, ok) := getnumn s
  let tp := { tp with hour := hour }
  if !ok then some (tp, [], .timePartial)
  else
    let tp := { tp with day := tp.day + hour.tdiv 24, hour := hour.tmod 24 }
    if s.length = 0 then some (tp, [], .timeOK)
    else if s.head? = some ':' then parsetimeMinutes tp (s.drop 1)
    else some (tp, [], .timePartial)

/-- The value `fastparse.ParseUint64` returns for a run of digits, whose only
error is an overflow, returned with `math.MaxUint64`. -/
def digitsValue (digits : List Char) : ℕ :=
  match Fastparse.ParseUint64 digits 10 with
  | .ok i => i
  | .error (.overflow _) => 2 ^ 64 - 1
  | .error _ => 0

/-- The end of `parsetimeNoDelimiters`, after the seconds: a fraction, if digits
follow a `.`, then the clamp. -/
def noDelimitersFraction (tp : TimeParts) (s : List Char) :
    Option (TimeParts × List Char × TimeState) := do
  let (tp, s, state) ←
    if s.length > 1 ∧ s.head? = some '.' ∧ isDigit s 1 then do
      let n := fractionLength s
      let (nsec, l, ok) ← parseNanoseconds s n
      pure ({ tp with nsec := nsec, prec := UInt8.ofNat l }, s.drop n,
        if ok then TimeState.timeOK else .timeInvalid)
    else pure (tp, s, .timeOK)
  let (tp, state) := clampTimeparts tp state
  return (tp, s, state)

/-- `case 1, 2` of `parsetimeNoDelimiters`: the seconds are the `integral` digits
left. -/
def noDelimitersSeconds (tp : TimeParts) (s : List Char) (integral : ℕ) :
    Option (TimeParts × List Char × TimeState) :=
  let (sec, s, ok) := getnuml s integral
  let tp := { tp with sec := sec }
  if !ok ∨ sec > 59 then some (tp, [], .timeInvalid) else noDelimitersFraction tp s

/-- `case 3, 4` of `parsetimeNoDelimiters`: the minutes, then the last two digits
as seconds. -/
def noDelimitersMinutes (tp : TimeParts) (s : List Char) (integral : ℕ) :
    Option (TimeParts × List Char × TimeState) :=
  let (min, s, ok) := getnuml s (integral - 2)
  let tp := { tp with min := min }
  if !ok ∨ min > 59 then some (tp, [], .timeInvalid) else noDelimitersSeconds tp s 2

/-- `parsetimeNoDelimiters`: the digits before any `.` are seconds, minutes and
hours from the right, two digits each and the hours all the rest, below
`2^32`. -/
def parsetimeNoDelimiters (tp : TimeParts) (s : List Char) :
    Option (TimeParts × List Char × TimeState) :=
  let integral := (s.takeWhile fun c => c ≠ '.' ∧ isDigitChar c).length
  if integral = 0 then some (tp, [], .timeInvalid)
  else if integral ≤ 2 then noDelimitersSeconds tp s integral
  else if integral ≤ 4 then noDelimitersMinutes tp s integral
  else if digitsValue (s.take integral) > 2 ^ 32 - 1 then some (tp, [], .timeInvalid)
  else
    let (hour, s', ok) := getnuml s (integral - 4)
    let tp := { tp with hour := hour }
    -- a bare return: the named results are still `""` and `TimeOK`
    if !ok then some (tp, [], .timeOK)
    else noDelimitersMinutes { tp with day := tp.day + hour.tdiv 24, hour := hour.tmod 24 } s' 4

/-- The day count before the hours in `parsetimeAny`, when the first separator is
a space: the days, and the text of the hours after the spaces, or `none` when
the text is to be read without delimiters. -/
def daysBeforeHours (s : List Char) : Option (Option (ℤ × List Char)) := do
  let (day, rest, ok) := getnum s false
  if !ok then return none
  let first ← rest.head?
  if !isSpace first then return none
  let rest := rest.dropWhile isSpace
  if !isDigit rest 0 then return none
  return some (day, rest)

/-- `parsetimeAny`: the first space or colon decides how the text is read. -/
def parsetimeAny (tp : TimeParts) (s : List Char) : Option (TimeParts × List Char × TimeState) :=
  match s.find? fun c => isSpace c || c = ':' with
  | some c =>
    if isSpace c then do
      match ← daysBeforeHours s with
      | none => parsetimeNoDelimiters { tp with day := 0 } s
      | some (day, rest) =>
        let tp := { tp with day := day }
        if day > 34 then
          let (tp, state) := clampTimeparts tp .timeOK
          return (tp, [], state)
        else parsetimeHours tp rest
    else parsetimeHours tp s
  | none => parsetimeNoDelimiters tp s

/-- `strings.Trim(in, " \t\r\n")`. -/
def trimTime (s : List Char) : List Char :=
  let cut := fun c => c = ' ' ∨ c = '\t' ∨ c = '\r' ∨ c = '\n'
  (s.dropWhile cut).reverse.dropWhile cut |>.reverse

/-- The first half of `ParseTime(in, prec)`, before the rounding: the time, the
count of fraction digits read, the state, and the text left after the time. -/
def parseTimeParts (s : List Char) : Option (Time × ℕ × TimeState × List Char) := do
  let s := trimTime s
  if s.length = 0 then return (⟨0, 0, 0, 0⟩, 0, .timeInvalid, [])
  let (neg, s) := if s.head? = some '-' then (true, s.drop 1) else (false, s)
  let (tp, s, state) ← parsetimeAny TimeParts.zero s
  if state = .timeInvalid then return (⟨0, 0, 0, 0⟩, 0, state, [])
  let (tp, state) := clampTimeparts tp state
  -- `uint16(24*tp.day + tp.hour)`: the `int` wrap leaves the low 16 bits alone
  let hours := UInt16.ofInt (24 * tp.day + tp.hour)
  let hours := if neg then hours ||| negMask else hours
  return (⟨hours, UInt8.ofInt tp.min, UInt8.ofInt tp.sec, UInt32.ofInt tp.nsec⟩, tp.prec.toNat,
    state, s)

/-- `ParseTime(in, prec)`: the time, the precision, and the state; with a
precision from `0` the time is rounded to it. `none` is a panic, the one of
`Time.Round` for a precision past `9`. -/
def parseTime (s : List Char) (prec : ℤ) : Option (Time × ℤ × TimeState) := do
  let (t, l, state, s) ← parseTimeParts s
  if state = .timeInvalid then return (t, 0, state)
  let (t, prec) ← if prec < 0 then pure (t, (l : ℤ)) else do
    let t ← t.round prec
    pure (t, prec)
  let state := if state = .timeOK ∧ s.length > 0 then .timePartial else state
  return (t, prec, state)

/-! ## Rounding after the clamp -/

/-- `ParseTime` with a precision from `0` is `ParseTime` with `-1`, which does not
round, followed by the rounding. -/
theorem parseTime_of_nonneg {s : List Char} {prec : ℤ} (nonneg : 0 ≤ prec) :
    parseTime s prec = (parseTime s (-1)).bind fun (t, _, state) =>
      if state = .timeInvalid then some (t, 0, state)
      else (t.round prec).map fun t => (t, prec, state) := by
  unfold parseTime
  cases parseTimeParts s with
  | none => rfl
  | some parts =>
    obtain ⟨t, l, state, rest⟩ := parts
    by_cases invalid : state = .timeInvalid
    · simp [invalid]
    · -- a state that is not `timeInvalid` stays so after the text left is looked at
      have adjusted : (if state = .timeOK ∧ rest.length > 0 then TimeState.timePartial else state) ≠
          .timeInvalid := by
        split
        · exact TimeState.noConfusion
        · exact invalid
      simp only [bind, Option.bind, pure, if_neg invalid, if_neg (not_lt.mpr nonneg),
        show (-1 : ℤ) < 0 by decide, if_true, adjusted, if_false]
      cases t.round prec <;> rfl

/-- A `TIME` that `ParseTime` reads, unrounded, as `838:59:59` with a fraction
that rounds up at `p` digits comes back, rounded to `p` digits, as `839:00:00`,
with the same state. -/
theorem parseTime_rounds_past_limit {s : List Char} {p : ℕ} (digits : p ≤ 9) {t : Time} {l : ℤ}
    {state : TimeState} (parsed : parseTime s (-1) = some (t, l, state))
    (valid : state ≠ .timeInvalid) (hour : t.Hour = 838) (minute : t.minute = 59)
    (second : t.second = 59) (up : 10 ^ 9 - 10 ^ (9 - p) / 2 ≤ t.nanosecond.toNat)
    (below : t.nanosecond.toNat < 10 ^ 9) :
    ∃ t' : Time, parseTime s p = some (t', (p : ℤ), state) ∧ t'.Hour = 839 ∧ t'.minute = 0 ∧
      t'.second = 0 := by
  obtain ⟨hours, minutes, seconds, -⟩ := carrySecond_past_limit hour minute second
  refine ⟨{ t.carrySecond with nanosecond := 0 }, ?_, hours, minutes, seconds⟩
  rw [parseTime_of_nonneg (by omega), parsed, Option.bind_some]
  dsimp only
  rw [if_neg valid, round_of_rounds_up digits up below]
  rfl

theorem parseTime_rounds_past_limit_example :
    ∃ t' : Time, parseTime "838:59:59.9".toList 0 = some (t', 0, .timeOK) ∧ t'.Hour = 839 ∧
      t'.minute = 0 ∧ t'.second = 0 :=
  parseTime_rounds_past_limit (p := 0) (by decide)
    (by decide +kernel :
      parseTime "838:59:59.9".toList (-1) = some (⟨838, 59, 59, 900000000⟩, 1, .timeOK))
    (by decide) (by decide +kernel) (by decide) (by decide) (by decide +kernel) (by decide +kernel)

/-- Two `TIME`s outside the range that `ParseTime` returns, without rounding, as
complete: the clamp keeps the fraction of `838:59:59.5`, and hours past `2^63`
wrap in `getnumn` to `1000`. -/
theorem parseTime_unrounded_outside_range :
    parseTime "838:59:59.5".toList (-1) = some (⟨838, 59, 59, 500000000⟩, 1, .timeOK) ∧
    parseTime "9223372036854776808:00:00".toList (-1) = some (⟨1000, 0, 0, 0⟩, 0, .timeOK) := by
  decide +kernel

end Vitess.Datetime
