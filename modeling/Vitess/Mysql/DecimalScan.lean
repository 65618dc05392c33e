import Vitess.Mysql.DecimalFormat
import Vitess.Data.Limbs

/-!
# Reading decimals back

`NewFromMySQL` of `go/mysql/decimal/scan.go`, which reads the text of a
`DECIMAL` value. After an optional sign, a text of at most 18 characters is
read into a `uint64` by `parseDecimal64`; a longer one, or one that overflows,
is split at its point and read by `parseLargeDecimal`, which gathers 19 digits
into each 64-bit word of a `big.Int` with `mulAddWW`, multiplying the words so
far by `10^19` and adding the new one. A text of more integral digits than nine
words of nine digits gets `largestForm`, and its fractional digits are cut to
the words left.

A Go panic is the outer `Option`: the word slice is allocated with a capacity
of five words, and `mulAddWW` panics when it would grow past it.

The word arithmetic is `Vitess.Limbs.mulAdd` in base `2^64`
(`mulAddVWW_eq`), so the words stand for the number the digits spell
(`parseChunk_digits`, `parseLargeDecimal_digits`). What `parseDecimal64`
accepts is digits with at most one point, read as the same number
(`parseDecimal64_ok`), so on a short text the two paths agree
(`newFromMySQLLarge_of_parseDecimal64`).

A `DecimalText` is a sign and the digits on either side of the point.
`NewFromMySQL` reads every such text of at most 65 digits as the decimal it
stands for (`newFromMySQL_render`), and `StringMySQL` writes one for every
decimal of at most 65 digits, 30 of them after the point (`stringMySQL_text`),
so the text of such a decimal reads back as the same value
(`decimal_text_round_trips`).
-/

namespace Vitess.Decimal

open Go Limbs

/-! ## The source -/

/-- The errors of `parseDecimal64`, `parseLargeDecimal` and `NewFromMySQL`. -/
inductive ScanError where
  /-- `too many .s` -/
  | tooManyDots
  /-- `unexpected character %q` -/
  | unexpectedCharacter (c : Char)
  /-- `errOverflow`: the digits do not fit in a `uint64`. -/
  | overflow
  /-- `can't convert %q to decimal: too short` -/
  | tooShort (original : List Char)
  /-- `can't convert %s to decimal: %v` -/
  | cantConvert (original : List Char) (err : ScanError)
  deriving DecidableEq, Repr

/-- `n` of `scan_64.go`: the decimal digits in a word. -/
def wordDigits : ℕ := 19

/-- `bn` of `scan_64.go`: `10^19`, the base of a word of digits. -/
def wordBase : ℕ := 10 ^ 19

/-- `s` of `scan_64.go`: the words the slice of `parseLargeDecimal` can hold. -/
def wordCapacity : ℕ := 5

/-- `MyMaxBigDigits`: the words of nine digits MySQL gives a decimal. -/
def myMaxBigDigits : ℤ := 9

/-- `MyMaxPrecision`. -/
def myMaxPrecision : ℤ := 65

/-- `mulAddWWW(x, y, c)`: `bits.Mul` gives the high and low words of `x * y`;
`c` is added to the low word, and one is carried into the high word when that
addition wraps. -/
def mulAddWWW (x y c : ℕ) : ℕ × ℕ :=
  let z1 := x * y / 2 ^ 64
  let zz0 := x * y % 2 ^ 64
  let z0 := (zz0 + c) % 2 ^ 64
  (if z0 < zz0 then (z1 + 1) % 2 ^ 64 else z1, z0)

/-- `mulAddVWW(z, x, y, r)`: `c, z[i] = mulAddWWW(x[i], y, c)` from the lowest
word, starting with `c = r`; the words written and the last carry. -/
def mulAddVWW : List ℕ → ℕ → ℕ → List ℕ × ℕ
  | [], _, c => ([], c)
  | xi :: x, y, c =>
    let (c, zi) := mulAddWWW xi y c
    let (z, c) := mulAddVWW x y c
    (zi :: z, c)

/-- `mulAddWW(z, z, y, r)`: `z[:m+1]`, which panics past the capacity of the
slice, then the words of `z * y + r` with the carry as the new top word. -/
def mulAddWW (z : List ℕ) (y r : ℕ) : Option (List ℕ) :=
  if z.length + 1 ≤ wordCapacity then
    let (words, c) := mulAddVWW z y r
    some (words ++ [c])
  else none

/-- `pow(x, n)`: repeated squaring in `big.Word` arithmetic. -/
def pow (x n : ℕ) : ℕ :=
  powLoop (2 ^ 64) x n 1

/-- What `parseLargeDecimal` carries from one character to the next: `di`, the
digits not yet in a word, `i`, their count, and `z`, the words, lowest first. -/
structure LargeState where
  di : ℕ
  i : ℕ
  z : List ℕ
  deriving DecidableEq, Repr

/-- `parseChunk(partial)`: each digit is collected in `di`, and every 19 of them
make a new word of `z` through `mulAddWW`; a `.` is skipped. -/
def parseChunk : List Char → LargeState → Option (Except ScanError LargeState)
  | [], st => some (.ok st)
  | ch :: chunk, st =>
    if ch = '.' then parseChunk chunk st
    else if '0' ≤ ch ∧ ch ≤ '9' then
      let di := (st.di * 10 + (ch.toNat - '0'.toNat)) % 2 ^ 64
      let i := st.i + 1
      if i = wordDigits then
        match mulAddWW st.z wordBase di with
        | none => none
        | some z => parseChunk chunk ⟨0, 0, z⟩
      else parseChunk chunk ⟨di, i, st.z⟩
    else some (.error (.unexpectedCharacter ch))

/-- `parseLargeDecimal(integral, fractional)`: both parts read by `parseChunk`,
the last digits added as a word of `10^i`, and the words read as a `big.Int`
(`SetBits`). -/
def parseLargeDecimal (integral fractional : List Char) : Option (Except ScanError ℤ) :=
  match parseChunk integral ⟨0, 0, []⟩ with
  | none => none
  | some (.error e) => some (.error e)
  | some (.ok st) =>
    match parseChunk fractional st with
    | none => none
    | some (.error e) => some (.error e)
    | some (.ok st) =>
      if st.i > 0 then
        match mulAddWW st.z (pow 10 st.i) st.di with
        | none => none
        | some z => some (.ok ((Nat.ofDigits (2 ^ 64) z : ℕ) : ℤ))
      else some (.ok ((Nat.ofDigits (2 ^ 64) st.z : ℕ) : ℤ))

/-- The loop of `parseDecimal64` from index `i`, with `n` read so far and the
index of the point seen, if any. -/
def parseDecimal64Loop : List Char → ℕ → ℕ → Option ℕ → Except ScanError (ℕ × Option ℕ)
  | [], _, n, dot => .ok (n, dot)
  | c :: s, i, n, dot =>
    if c = '.' then
      if dot.isSome then .error .tooManyDots else parseDecimal64Loop s (i + 1) n (some i)
    else if '0' ≤ c ∧ c ≤ '9' then
      -- `cutoff = math.MaxUint64/10 + 1`
      if n ≥ (2 ^ 64 - 1) / 10 + 1 then .error .overflow
      else
        let n := n * 10 % 2 ^ 64
        let n1 := (n + (c.toNat - '0'.toNat)) % 2 ^ 64
        if n1 < n then .error .overflow else parseDecimal64Loop s (i + 1) n1 dot
    else .error (.unexpectedCharacter c)

/-- `parseDecimal64(s)`: the digits as a `uint64`, at the exponent that puts the
point where it was. -/
def parseDecimal64 (s : List Char) : Except ScanError Decimal :=
  match parseDecimal64Loop s 0 0 none with
  | .error e => .error e
  | .ok (n, dot) =>
    let exp : ℤ := match dot with
      | some dot => wrapInt32 (-((s.length - dot - 1 : ℕ) : ℤ))
      | none => 0
    .ok ⟨n, exp⟩

/-- The part of `NewFromMySQL` after the fast path: the text split at its point,
the word counts checked against `MyMaxBigDigits`, and the digits read by
`parseLargeDecimal`. With the point last, the fractional part is empty. -/
def newFromMySQLLarge (original : List Char) (neg : Bool) (s : List Char) : Option (Except ScanError Decimal) :=
  let parts : Except ScanError (List Char × List Char) :=
    match s.idxOf? '.' with
    | some pIndex =>
      if '.' ∈ s.drop (pIndex + 1) then .error (.cantConvert original .tooManyDots)
      else .ok (s.take pIndex, s.drop (pIndex + 1))
    | none => .ok (s, [])
  match parts with
  | .error e => some (.error e)
  | .ok (integral, fractional) =>
    let myintg := myBigDigits (wrapInt32 integral.length)
    let myfrac := myBigDigits (wrapInt32 fractional.length)
    if myintg > myMaxBigDigits then some (.ok (largestForm myMaxPrecision 0 neg))
    else
      -- `fractional[:int((MyMaxBigDigits-myintg)*9)]`, an `int32` bound; the model
      -- panics past the end of the text, where Go would read the spare capacity
      let cut := wrapInt32 ((myMaxBigDigits - myintg) * 9)
      let trimmed : Option (List Char) :=
        if myintg + myfrac > myMaxBigDigits then
          if 0 ≤ cut ∧ cut ≤ fractional.length then some (fractional.take cut.toNat) else none
        else some fractional
      match trimmed with
      | none => none
      | some fractional =>
        match parseLargeDecimal integral fractional with
        | none => none
        | some (.error e) => some (.error e)
        | some (.ok value) => some (.ok ⟨if neg then -value else value, wrapInt32 (-fractional.length)⟩)

/-- `NewFromMySQL(s)`. -/
def newFromMySQL (s : List Char) : Option (Except ScanError Decimal) :=
  let original := s
  let (neg, s) : Bool × List Char := match s with
    | '+' :: rest => (false, rest)
    | '-' :: rest => (true, rest)
    | _ => (false, s)
  if s = [] then some (.error (.tooShort original))
  else if s.length ≤ 18 then
    match parseDecimal64 s with
    | .ok dec => some (.ok (if neg then dec.neg else dec))
    | .error err =>
      if err ≠ .overflow then some (.error (.cantConvert original err))
      else newFromMySQLLarge original neg s
  else newFromMySQLLarge original neg s

/-- `StringMySQL`. -/
def stringMySQL (d : Decimal) : List Char :=
  d.formatFast 0 false false

/-! ## Word arithmetic -/

/-- On words, `mulAddWWW` gives the high and low words of `x * y + c`. -/
theorem mulAddWWW_eq {x y c : ℕ} (hx : x < 2 ^ 64) (hy : y < 2 ^ 64) (hc : c < 2 ^ 64) :
    mulAddWWW x y c = ((x * y + c) / 2 ^ 64, (x * y + c) % 2 ^ 64) := by
  have product : x * y < 2 ^ 64 * 2 ^ 64 - 2 ^ 64 := by
    have := Nat.mul_le_mul (Nat.le_sub_one_of_lt hx) (Nat.le_sub_one_of_lt hy)
    omega
  unfold mulAddWWW
  generalize x * y = p at *
  dsimp only
  -- the low word wraps exactly when the sum carries into the high word
  split_ifs <;> ext <;> dsimp only <;> omega

theorem mulAddVWW_eq : ∀ {x : List ℕ} {y c : ℕ}, (∀ xi ∈ x, xi < 2 ^ 64) → y < 2 ^ 64 → c < 2 ^ 64 →
    mulAddVWW x y c = Limbs.mulAdd (2 ^ 64) x y c
  | [], _, _, _, _, _ => rfl
  | xi :: x, y, c, words, hy, hc => by
    have hxi : xi < 2 ^ 64 := words xi (List.mem_cons_self ..)
    have carry : (xi * y + c) / 2 ^ 64 < 2 ^ 64 :=
      (Nat.div_lt_iff_lt_mul (by decide)).mpr (mul_add_lt_mul_self hxi hy hc)
    rw [mulAddVWW, mulAddWWW_eq hxi hy hc, Limbs.mulAdd]
    dsimp only
    rw [mulAddVWW_eq (fun w member => words w (List.mem_cons_of_mem xi member)) hy carry]

/-- Below its capacity, `mulAddWW` grows the words by one, to the words of
`z * y + r`. -/
theorem mulAddWW_spec {z : List ℕ} {y r : ℕ} (room : z.length < wordCapacity) (words : ∀ w ∈ z, w < 2 ^ 64)
    (hy : y < 2 ^ 64) (hr : r < 2 ^ 64) :
    ∃ z', mulAddWW z y r = some z' ∧ z'.length = z.length + 1 ∧ (∀ w ∈ z', w < 2 ^ 64) ∧
      Nat.ofDigits (2 ^ 64) z' = Nat.ofDigits (2 ^ 64) z * y + r := by
  have value := ofDigits_mulAdd (b := 2 ^ 64) z y r
  obtain ⟨limbs, carry⟩ := mulAdd_lt words hy hr
  refine ⟨(Limbs.mulAdd (2 ^ 64) z y r).1 ++ [(Limbs.mulAdd (2 ^ 64) z y r).2], ?_, ?_, ?_, ?_⟩
  · rw [mulAddWW, if_pos (by omega), mulAddVWW_eq words hy hr]
  · simp
  · intro w member
    rcases List.mem_append.mp member with member | member
    · exact limbs w member
    · rw [List.mem_singleton.mp member]
      exact carry
  · rw [Nat.ofDigits_append, Nat.ofDigits_singleton, length_mulAdd, value]

/-- `pow` is the power modulo `2^64`. -/
theorem pow_eq (x n : ℕ) : pow x n = x ^ n % 2 ^ 64 := by
  rw [pow, powLoop_eq _ _ _ _ (by decide), Nat.one_mul]

/-! ## Digits -/

/-- A digit is read as one, and is neither a sign nor the point. -/
theorem isDigit_bounds {c : Char} (digit : isDigit c = true) :
    ('0' ≤ c ∧ c ≤ '9') ∧ c.toNat - '0'.toNat < 10 ∧ c ≠ '+' ∧ c ≠ '-' ∧ c ≠ '.' := by
  have bounds := isDigit_iff.mp digit
  refine ⟨by simpa [isDigit] using digit, by simp only [Char.reduceToNat]; omega, ?_, ?_, ?_⟩ <;>
  · rintro rfl
    simp at bounds

/-- Digits spell a number below ten to their count, times one more than the start. -/
theorem ofDigitChars_lt : ∀ (cs : List Char) (init : ℕ), (∀ c ∈ cs, isDigit c = true) →
    Nat.ofDigitChars 10 cs init < 10 ^ cs.length * (init + 1)
  | [], init, _ => by simp
  | c :: cs, init, digits => by
    have digit := (isDigit_bounds (digits c List.mem_cons_self)).2.1
    have rest := ofDigitChars_lt cs (10 * init + (c.toNat - '0'.toNat))
      (fun c member => digits c (List.mem_cons_of_mem _ member))
    rw [Nat.ofDigitChars_cons, List.length_cons, pow_succ]
    calc _ < 10 ^ cs.length * (10 * init + (c.toNat - '0'.toNat) + 1) := rest
      _ ≤ 10 ^ cs.length * 10 * (init + 1) := by rw [Nat.mul_assoc]; gcongr; omega

/-! ## The word-chunked path -/

namespace LargeState

/-- What `parseLargeDecimal` keeps true: fewer than 19 pending digits, whose
value is below `10^i`, and words below `2^64`. -/
def Valid (st : LargeState) : Prop :=
  st.i < wordDigits ∧ st.di < 10 ^ st.i ∧ ∀ w ∈ st.z, w < 2 ^ 64

/-- The number read so far: the words, then the pending digits. -/
def value (st : LargeState) : ℕ :=
  Nat.ofDigits (2 ^ 64) st.z * 10 ^ st.i + st.di

/-- The digits read so far: nineteen for each word, and the pending ones. -/
def count (st : LargeState) : ℕ :=
  st.z.length * wordDigits + st.i

theorem valid_init : (⟨0, 0, []⟩ : LargeState).Valid := by
  simp [Valid, wordDigits]

end LargeState

/-- One digit read by `parseChunk`: the pending digits take it, and the nineteenth
of them turns them into a word. With room for the word, the state stays valid
and its value is ten times the old one plus the digit. -/
theorem parseChunk_cons_digit {c : Char} {cs : List Char} {st : LargeState} (digit : isDigit c = true)
    (valid : st.Valid) (room : st.count < wordCapacity * wordDigits) :
    ∃ st', parseChunk (c :: cs) st = parseChunk cs st' ∧ st'.Valid ∧
      st'.value = 10 * st.value + (c.toNat - '0'.toNat) ∧ st'.count = st.count + 1 := by
  obtain ⟨range, value, -, -, point⟩ := isDigit_bounds digit
  obtain ⟨pending, below, words⟩ := valid
  unfold wordDigits at pending
  -- the pending digits stay below `10^19 < 2^64`, so the word arithmetic does not wrap
  have small : st.di * 10 + (c.toNat - '0'.toNat) < 10 ^ (st.i + 1) := by
    rw [pow_succ]
    omega
  have fits : st.di * 10 + (c.toNat - '0'.toNat) < 2 ^ 64 :=
    small.trans_le ((Nat.pow_le_pow_right (by decide) pending).trans (by decide))
  rw [parseChunk, if_neg point, if_pos range, Nat.mod_eq_of_lt fits]
  by_cases full : st.i + 1 = wordDigits
  · have room : st.z.length < wordCapacity := by
      unfold LargeState.count wordDigits wordCapacity at *
      omega
    obtain ⟨z, written, length, limbs, spelled⟩ :=
      mulAddWW_spec room words (by decide : wordBase < 2 ^ 64) fits
    refine ⟨⟨0, 0, z⟩, by rw [if_pos full, written], ⟨show 0 < 19 by decide, by simp, limbs⟩, ?_, ?_⟩
    · have base : wordBase = 10 ^ st.i * 10 := by
        rw [← pow_succ, full]
        rfl
      simp only [LargeState.value, spelled, base, pow_zero, Nat.mul_one, Nat.add_zero]
      ring
    · simp only [LargeState.count, length, wordDigits] at full ⊢
      omega
  · have next : st.i + 1 < 19 := by
      unfold wordDigits at full
      omega
    refine ⟨⟨_, st.i + 1, st.z⟩, by rw [if_neg full], ⟨next, small, words⟩, ?_, rfl⟩
    simp only [LargeState.value, pow_succ]
    ring

/-- `parseChunk` reads a chunk of digits into the state: its value takes the
digits, and every nineteen of them become a word, as long as the words fit
the slice. -/
theorem parseChunk_digits : ∀ (cs : List Char) (st : LargeState), (∀ c ∈ cs, isDigit c = true) → st.Valid →
    st.count + cs.length ≤ wordCapacity * wordDigits →
    ∃ st', parseChunk cs st = some (.ok st') ∧ st'.Valid ∧
      st'.value = Nat.ofDigitChars 10 cs st.value ∧ st'.count = st.count + cs.length
  | [], st, _, valid, _ => ⟨st, rfl, valid, rfl, rfl⟩
  | c :: cs, st, digits, valid, room => by
    obtain ⟨next, step, nextValid, nextValue, nextCount⟩ :=
      @parseChunk_cons_digit c cs st (digits c List.mem_cons_self) valid (by simp at room; omega)
    obtain ⟨st', read, valid', value', count'⟩ := parseChunk_digits cs next
      (fun c member => digits c (List.mem_cons_of_mem _ member)) nextValid (by simp at room; omega)
    refine ⟨st', step.trans read, valid', ?_, ?_⟩
    · rw [value', nextValue, Nat.ofDigitChars_cons]
    · simp only [count', nextCount, List.length_cons]
      omega

/-- `parseLargeDecimal` reads the digits of both parts as one number, for as
many digits as the five words of its slice hold. -/
theorem parseLargeDecimal_digits {integral fractional : List Char}
    (digits : ∀ c ∈ integral ++ fractional, isDigit c = true)
    (room : integral.length + fractional.length ≤ wordCapacity * wordDigits) :
    parseLargeDecimal integral fractional = some (.ok (Nat.ofDigitChars 10 (integral ++ fractional) 0)) := by
  obtain ⟨st, first, valid, value, count⟩ := parseChunk_digits integral ⟨0, 0, []⟩
    (fun c member => digits c (List.mem_append_left _ member)) LargeState.valid_init
    (by simp only [LargeState.count, List.length_nil]; omega)
  rw [show (⟨0, 0, []⟩ : LargeState).count = 0 from rfl, Nat.zero_add] at count
  obtain ⟨st', second, ⟨pending, below, words⟩, value', count'⟩ := parseChunk_digits fractional st
    (fun c member => digits c (List.mem_append_right _ member)) valid (by omega)
  have total : st'.count ≤ wordCapacity * wordDigits := by omega
  have spelled : st'.value = Nat.ofDigitChars 10 (integral ++ fractional) 0 := by
    rw [Nat.ofDigitChars_append, value', value]
    rfl
  simp only [parseLargeDecimal, first, second]
  unfold LargeState.value at spelled
  unfold wordDigits at pending
  split_ifs with pendingDigits
  · -- the last digits go in as one more word, of `10^i`
    have roomWord : st'.z.length < wordCapacity := by
      simp only [LargeState.count, wordDigits, wordCapacity] at total ⊢
      omega
    have power : pow 10 st'.i = 10 ^ st'.i :=
      (pow_eq 10 st'.i).trans (Nat.mod_eq_of_lt ((Nat.pow_le_pow_right (by decide) pending.le).trans_lt (by decide)))
    have powerFits : 10 ^ st'.i < 2 ^ 64 := (Nat.pow_le_pow_right (by decide) pending.le).trans_lt (by decide)
    obtain ⟨z, written, -, -, spelledZ⟩ :=
      mulAddWW_spec roomWord words (power ▸ powerFits) (below.trans powerFits)
    rw [written]
    simp only [spelledZ, power, spelled]
  · have noPending : st'.i = 0 := by omega
    rw [noPending, pow_zero] at below spelled
    have words : Nat.ofDigits (2 ^ 64) st'.z = Nat.ofDigitChars 10 (integral ++ fractional) 0 := by
      rw [← spelled, Nat.lt_one_iff.mp below, Nat.mul_one, Nat.add_zero]
    rw [words]

/-! ## The `uint64` path -/

/-- One digit read into the `uint64`: neither the cutoff nor the wrap test fires
while the number the digits spell fits. -/
theorem parseDecimal64Loop_cons_digit {c : Char} {s : List Char} {i n : ℕ} {dot : Option ℕ}
    (digit : isDigit c = true) (fits : 10 * n + (c.toNat - '0'.toNat) < 2 ^ 64) :
    parseDecimal64Loop (c :: s) i n dot = parseDecimal64Loop s (i + 1) (10 * n + (c.toNat - '0'.toNat)) dot := by
  obtain ⟨range, -, -, -, point⟩ := isDigit_bounds digit
  have noWrap : (n * 10 % 2 ^ 64 + (c.toNat - '0'.toNat)) % 2 ^ 64 = 10 * n + (c.toNat - '0'.toNat) := by
    omega
  rw [parseDecimal64Loop, if_neg point, if_pos range, if_neg (by omega)]
  simp only [noWrap]
  rw [if_neg (by omega)]

/-- Digits in front are read into the `uint64` as the number they spell, if it fits. -/
theorem parseDecimal64Loop_append_digits : ∀ {I : List Char} (rest : List Char) (i n : ℕ) (dot : Option ℕ),
    (∀ c ∈ I, isDigit c = true) → Nat.ofDigitChars 10 I n < 2 ^ 64 →
    parseDecimal64Loop (I ++ rest) i n dot =
      parseDecimal64Loop rest (i + I.length) (Nat.ofDigitChars 10 I n) dot
  | [], rest, i, n, dot, _, _ => by simp
  | c :: I, rest, i, n, dot, digits, fits => by
    rw [Nat.ofDigitChars_cons] at fits ⊢
    have atLeast := le_ofDigitChars I (10 * n + (c.toNat - '0'.toNat))
    rw [List.cons_append, parseDecimal64Loop_cons_digit (digits c List.mem_cons_self) (by omega),
      parseDecimal64Loop_append_digits rest (i + 1) _ dot
        (fun c member => digits c (List.mem_cons_of_mem _ member)) fits,
      List.length_cons, Nat.add_assoc, Nat.add_comm 1]

/-- Digits without a point read as an integer. -/
theorem parseDecimal64_digits {I : List Char} (digits : ∀ c ∈ I, isDigit c = true)
    (fits : Nat.ofDigitChars 10 I 0 < 2 ^ 64) :
    parseDecimal64 I = .ok ⟨Nat.ofDigitChars 10 I 0, 0⟩ := by
  have read := parseDecimal64Loop_append_digits [] 0 0 none digits fits
  rw [List.append_nil] at read
  rw [parseDecimal64, read, parseDecimal64Loop]

/-- Digits with one point read as the number all the digits spell, at the
exponent of the digits after the point. -/
theorem parseDecimal64_point {I F : List Char} (digits : ∀ c ∈ I ++ F, isDigit c = true)
    (fits : Nat.ofDigitChars 10 (I ++ F) 0 < 2 ^ 64) :
    parseDecimal64 (I ++ '.' :: F) = .ok ⟨Nat.ofDigitChars 10 (I ++ F) 0, wrapInt32 (-(F.length : ℤ))⟩ := by
  rw [Nat.ofDigitChars_append] at fits ⊢
  have integralFits := (le_ofDigitChars F _).trans_lt fits
  have afterPoint := parseDecimal64Loop_append_digits [] (0 + I.length + 1) _ (some (0 + I.length))
    (fun c member => digits c (List.mem_append_right _ member)) fits
  rw [List.append_nil] at afterPoint
  rw [parseDecimal64, parseDecimal64Loop_append_digits _ 0 0 none
      (fun c member => digits c (List.mem_append_left _ member)) integralFits,
    parseDecimal64Loop, if_pos rfl, if_neg (by simp), afterPoint, parseDecimal64Loop]
  simp only [List.length_append, List.length_cons, Nat.zero_add]
  congr 4
  omega

/-- A character the loop gets past is the first point, or a digit read without
overflow. -/
theorem parseDecimal64Loop_cons_ok {c : Char} {s : List Char} {i n m : ℕ} {dot dot' : Option ℕ}
    (accepted : parseDecimal64Loop (c :: s) i n dot = .ok (m, dot')) :
    (c = '.' ∧ dot = none ∧ parseDecimal64Loop s (i + 1) n (some i) = .ok (m, dot')) ∨
    (isDigit c = true ∧ parseDecimal64Loop s (i + 1) (10 * n + (c.toNat - '0'.toNat)) dot = .ok (m, dot')) := by
  rw [parseDecimal64Loop] at accepted
  by_cases point : c = '.'
  · rw [if_pos point] at accepted
    cases dot with
    | none => exact .inl ⟨point, rfl, accepted⟩
    | some k => cases accepted
  · rw [if_neg point] at accepted
    by_cases range : '0' ≤ c ∧ c ≤ '9'
    · rw [if_pos range] at accepted
      by_cases cutoff : n ≥ (2 ^ 64 - 1) / 10 + 1
      · rw [if_pos cutoff] at accepted
        cases accepted
      · rw [if_neg cutoff] at accepted
        dsimp only at accepted
        by_cases wrapped : (n * 10 % 2 ^ 64 + (c.toNat - '0'.toNat)) % 2 ^ 64 < n * 10 % 2 ^ 64
        · rw [if_pos wrapped] at accepted
          cases accepted
        · rw [if_neg wrapped] at accepted
          have digit : isDigit c = true := by simpa [isDigit] using range
          have value := (isDigit_bounds digit).2.1
          -- below the cutoff `n * 10` does not wrap, and the wrap test catches the sum
          have noWrap : (n * 10 % 2 ^ 64 + (c.toNat - '0'.toNat)) % 2 ^ 64 = 10 * n + (c.toNat - '0'.toNat) := by
            omega
          rw [noWrap] at accepted
          exact .inr ⟨digit, accepted⟩
    · rw [if_neg range] at accepted
      cases accepted

/-- After the point the loop accepts digits only, read as the number they spell. -/
theorem parseDecimal64Loop_ok_of_point : ∀ {s : List Char} {i n m k : ℕ} {dot' : Option ℕ},
    parseDecimal64Loop s i n (some k) = .ok (m, dot') →
    (∀ c ∈ s, isDigit c = true) ∧ m = Nat.ofDigitChars 10 s n ∧ dot' = some k
  | [], _, _, _, _, _, accepted => by
    cases accepted
    simp
  | c :: s, _, _, _, _, _, accepted => by
    rcases parseDecimal64Loop_cons_ok accepted with ⟨-, noPoint, -⟩ | ⟨digit, rest⟩
    · cases noPoint
    · obtain ⟨digits, value, dot⟩ := parseDecimal64Loop_ok_of_point rest
      refine ⟨?_, by rw [value, Nat.ofDigitChars_cons], dot⟩
      intro d member
      rcases List.mem_cons.mp member with rfl | member
      · exact digit
      · exact digits d member

/-- What the loop accepts before any point: digits, or digits, one point and
digits; read as the number all the digits spell, with the point's index. -/
theorem parseDecimal64Loop_ok : ∀ {s : List Char} {i n m : ℕ} {dot' : Option ℕ},
    parseDecimal64Loop s i n none = .ok (m, dot') →
    ((∀ c ∈ s, isDigit c = true) ∧ m = Nat.ofDigitChars 10 s n ∧ dot' = none) ∨
    ∃ I F, s = I ++ '.' :: F ∧ (∀ c ∈ I ++ F, isDigit c = true) ∧
      m = Nat.ofDigitChars 10 (I ++ F) n ∧ dot' = some (i + I.length)
  | [], _, _, _, _, accepted => by
    cases accepted
    simp
  | c :: s, i, _, _, _, accepted => by
    rcases parseDecimal64Loop_cons_ok accepted with ⟨point, -, rest⟩ | ⟨digit, rest⟩
    · -- the point: digits only after it
      obtain ⟨digits, value, dot⟩ := parseDecimal64Loop_ok_of_point rest
      exact .inr ⟨[], s, by rw [point]; rfl, digits, value, by rw [dot]; rfl⟩
    · have cons {P : Char → Prop} {cs : List Char} (head : P c) (tail : ∀ d ∈ cs, P d) : ∀ d ∈ c :: cs, P d := by
        intro d member
        rcases List.mem_cons.mp member with rfl | member
        · exact head
        · exact tail d member
      rcases parseDecimal64Loop_ok rest with ⟨digits, value, dot⟩ | ⟨I, F, split, digits, value, dot⟩
      · exact .inl ⟨cons digit digits, by rw [value, Nat.ofDigitChars_cons], dot⟩
      · refine .inr ⟨c :: I, F, by rw [split]; rfl, cons digit digits, ?_, ?_⟩
        · rw [value, List.cons_append, Nat.ofDigitChars_cons]
        · rw [dot, List.length_cons]
          congr 1
          omega

/-- What `parseDecimal64` accepts: digits, read as an integer, or digits with one
point, read as all the digits at the exponent of those after the point. -/
theorem parseDecimal64_ok {s : List Char} {d : Decimal} (accepted : parseDecimal64 s = .ok d) :
    ((∀ c ∈ s, isDigit c = true) ∧ d = ⟨Nat.ofDigitChars 10 s 0, 0⟩) ∨
    ∃ I F, s = I ++ '.' :: F ∧ (∀ c ∈ I ++ F, isDigit c = true) ∧
      d = ⟨Nat.ofDigitChars 10 (I ++ F) 0, wrapInt32 (-(F.length : ℤ))⟩ := by
  unfold parseDecimal64 at accepted
  split at accepted
  · cases accepted
  · rename_i m dot loop
    cases accepted
    rcases parseDecimal64Loop_ok loop with ⟨digits, value, rfl⟩ | ⟨I, F, rfl, digits, value, rfl⟩
    · exact .inl ⟨digits, by rw [value]⟩
    · refine .inr ⟨I, F, rfl, digits, ?_⟩
      rw [value]
      simp only [List.length_append, List.length_cons, Nat.zero_add]
      congr 4
      omega

/-! ## The large path -/

/-- Within 65 digits the two parts take at most nine words of nine digits, so
the large path neither gives up on the integral part nor cuts the fractional one. -/
theorem bigDigits_fit {a b : ℕ} (fits : a + b ≤ 65) :
    ¬ myBigDigits (wrapInt32 a) > myMaxBigDigits ∧
      ¬ myBigDigits (wrapInt32 a) + myBigDigits (wrapInt32 b) > myMaxBigDigits := by
  rw [wrapInt32_of_inInt32 (by unfold InInt32; omega), wrapInt32_of_inInt32 (by unfold InInt32; omega),
    myBigDigits_of_inInt32 (by unfold InInt32; omega), myBigDigits_of_inInt32 (by unfold InInt32; omega)]
  simp only [myMaxBigDigits]
  rw [Int.tdiv_eq_ediv_of_nonneg (by omega), Int.tdiv_eq_ediv_of_nonneg (by omega)]
  omega

/-- Digits are never the point. -/
theorem point_not_mem {cs : List Char} (digits : ∀ c ∈ cs, isDigit c = true) : '.' ∉ cs :=
  fun member => (isDigit_bounds (digits _ member)).2.2.2.2 rfl

/-- The large path reads digits with one point as all the digits, at the exponent
of those after the point. -/
theorem newFromMySQLLarge_point {I F : List Char} (original : List Char) (neg : Bool)
    (digits : ∀ c ∈ I ++ F, isDigit c = true) (fits : I.length + F.length ≤ 65) :
    newFromMySQLLarge original neg (I ++ '.' :: F) =
      some (.ok ⟨if neg then -(Nat.ofDigitChars 10 (I ++ F) 0 : ℤ) else Nat.ofDigitChars 10 (I ++ F) 0,
        wrapInt32 (-(F.length : ℤ))⟩) := by
  have noPoint : '.' ∉ I := point_not_mem fun c member => digits c (List.mem_append_left _ member)
  have single : '.' ∉ F := point_not_mem fun c member => digits c (List.mem_append_right _ member)
  obtain ⟨integralFits, noCut⟩ := bigDigits_fit fits
  have read := parseLargeDecimal_digits digits (by unfold wordCapacity wordDigits; omega)
  have after : (I ++ '.' :: F).drop (I.length + 1) = F := by simp
  have before : (I ++ '.' :: F).take I.length = I := by simp
  unfold newFromMySQLLarge
  simp only [idxOf?_append_cons noPoint, after, before, if_neg single, if_neg integralFits, if_neg noCut, read]

/-- The large path reads digits without a point as an integer. -/
theorem newFromMySQLLarge_digits {I : List Char} (original : List Char) (neg : Bool)
    (digits : ∀ c ∈ I, isDigit c = true) (fits : I.length ≤ 65) :
    newFromMySQLLarge original neg I =
      some (.ok ⟨if neg then -(Nat.ofDigitChars 10 I 0 : ℤ) else Nat.ofDigitChars 10 I 0, 0⟩) := by
  have noPoint : I.idxOf? '.' = none := List.idxOf?_eq_none_iff.mpr (point_not_mem digits)
  obtain ⟨integralFits, noCut⟩ := bigDigits_fit (b := 0) (by omega : I.length + 0 ≤ 65)
  have read := @parseLargeDecimal_digits I [] (by simpa using digits)
    (by unfold wordCapacity wordDigits; simp only [List.length_nil]; omega)
  rw [List.append_nil] at read
  unfold newFromMySQLLarge
  simp only [noPoint, List.length_nil, Nat.cast_zero] at integralFits noCut ⊢
  simp only [if_neg integralFits, if_neg noCut, read]
  rfl

/-! ## Texts of decimals -/

/-- A decimal text as `NewFromMySQL` reads it: a sign, the digits before the
point and those after it. -/
structure DecimalText where
  neg : Bool
  integral : List Char
  fractional : List Char
  integral_ne_nil : integral ≠ []
  digits : ∀ c ∈ integral ++ fractional, isDigit c = true

namespace DecimalText

/-- The text after the sign: the point is written only when digits follow it. -/
def unsigned (t : DecimalText) : List Char :=
  t.integral ++ (if t.fractional = [] then [] else '.' :: t.fractional)

/-- The characters of the text. -/
def render (t : DecimalText) : List Char :=
  (if t.neg then ['-'] else []) ++ t.unsigned

/-- The number the digits spell, at the exponent of those after the point. -/
def magnitude (t : DecimalText) : Decimal :=
  ⟨Nat.ofDigitChars 10 (t.integral ++ t.fractional) 0, -(t.fractional.length : ℤ)⟩

/-- The decimal the text stands for. -/
def value (t : DecimalText) : Decimal :=
  if t.neg then t.magnitude.neg else t.magnitude

theorem value_eq (t : DecimalText) :
    t.value = ⟨if t.neg then -t.magnitude.value else t.magnitude.value, t.magnitude.exp⟩ := by
  unfold value
  cases t.neg <;> rfl

/-- A text whose digits spell the magnitude of `d` scaled up to a whole number,
with as many digits after the point as the exponent of `d` asks, stands for `d`. -/
theorem toRat_value {t : DecimalText} {d : Decimal} (sign : t.neg = decide (d.value < 0))
    (spelled : Nat.ofDigitChars 10 (t.integral ++ t.fractional) 0 = d.value.natAbs * 10 ^ d.exp.toNat)
    (point : t.fractional.length = (-d.exp).toNat) : t.value.toRat = d.toRat := by
  have signed : (if t.neg then -t.magnitude.value else t.magnitude.value) = d.value * 10 ^ d.exp.toNat := by
    rw [magnitude, spelled, sign, Nat.cast_mul, Int.natCast_natAbs, Nat.cast_pow, Nat.cast_ofNat]
    by_cases negative : d.value < 0
    · rw [if_pos (decide_eq_true negative), abs_of_neg negative, neg_mul, neg_neg]
    · rw [if_neg (by simpa using negative), abs_of_nonneg (not_lt.mp negative)]
  -- the digits carry the positive part of the exponent, the point the negative part
  have exponent : (d.exp.toNat : ℤ) + t.magnitude.exp = d.exp := by
    show (d.exp.toNat : ℤ) + -(t.fractional.length : ℤ) = d.exp
    rw [point]
    omega
  rw [value_eq, toRat, toRat, signed, Int.cast_mul, Int.cast_pow, Int.cast_ofNat, mul_assoc, ← zpow_natCast,
    ← zpow_add₀ (by norm_num), exponent]

theorem unsigned_length (t : DecimalText) :
    t.integral.length + t.fractional.length ≤ t.unsigned.length := by
  unfold unsigned
  split_ifs <;> simp_all

/-- The text after the sign starts with a digit. -/
theorem unsigned_cons (t : DecimalText) : ∃ c rest, t.unsigned = c :: rest ∧ isDigit c = true := by
  obtain ⟨c, integral, split⟩ := List.exists_cons_of_ne_nil t.integral_ne_nil
  refine ⟨c, integral ++ (if t.fractional = [] then [] else '.' :: t.fractional), by rw [unsigned, split]; rfl, ?_⟩
  exact t.digits c (List.mem_append_left _ (split ▸ List.mem_cons_self))

/-- The `uint64` path reads a text of at most 18 characters as its magnitude. -/
theorem parseDecimal64_unsigned (t : DecimalText) (short : t.unsigned.length ≤ 18) :
    parseDecimal64 t.unsigned = .ok t.magnitude := by
  have spelled := ofDigitChars_lt (t.integral ++ t.fractional) 0 t.digits
  have count := t.unsigned_length
  have fits : Nat.ofDigitChars 10 (t.integral ++ t.fractional) 0 < 2 ^ 64 := by
    rw [Nat.zero_add, Nat.mul_one, List.length_append] at spelled
    exact spelled.trans_le ((Nat.pow_le_pow_right (by decide) (by omega)).trans (by decide : 10 ^ 18 ≤ 2 ^ 64))
  unfold unsigned magnitude
  split_ifs with noFraction
  · have digits := t.digits
    simp only [noFraction, List.append_nil, List.length_nil, Nat.cast_zero, neg_zero] at digits fits ⊢
    exact parseDecimal64_digits digits fits
  · rw [parseDecimal64_point t.digits fits, wrapInt32_of_inInt32]
    have := t.unsigned_length
    unfold InInt32
    omega

/-- The large path reads a text of at most 65 digits as the decimal it stands for. -/
theorem newFromMySQLLarge_unsigned (t : DecimalText) (original : List Char)
    (fits : t.integral.length + t.fractional.length ≤ 65) :
    newFromMySQLLarge original t.neg t.unsigned = some (.ok t.value) := by
  rw [value_eq, unsigned, magnitude]
  by_cases noFraction : t.fractional = []
  · have digits := t.digits
    simp only [noFraction, if_true, List.append_nil, List.length_nil, Nat.add_zero, Nat.cast_zero,
      neg_zero] at digits fits ⊢
    exact newFromMySQLLarge_digits original t.neg digits fits
  · rw [if_neg noFraction, newFromMySQLLarge_point original t.neg t.digits fits,
      wrapInt32_of_inInt32 (by unfold InInt32; omega)]

end DecimalText

/-- `NewFromMySQL` reads every text of at most 65 digits as the decimal it stands
for: the `uint64` path takes it up to 18 characters, and the large path after. -/
theorem newFromMySQL_render (t : DecimalText) (fits : t.integral.length + t.fractional.length ≤ 65) :
    newFromMySQL t.render = some (.ok t.value) := by
  obtain ⟨c, rest, head, digit⟩ := t.unsigned_cons
  obtain ⟨-, -, plus, minus, -⟩ := isDigit_bounds digit
  -- the sign is stripped, and only the sign
  have stripped : (match t.render with
      | '+' :: rest => (false, rest)
      | '-' :: rest => (true, rest)
      | _ => (false, t.render) : Bool × List Char) = (t.neg, t.unsigned) := by
    unfold DecimalText.render
    cases t.neg
    · simp only [Bool.false_eq_true, if_false, List.nil_append, head]
      split <;> simp_all
    · rfl
  unfold newFromMySQL
  simp only [stripped]
  rw [if_neg (by rw [head]; exact List.cons_ne_nil c rest)]
  by_cases short : t.unsigned.length ≤ 18
  · rw [if_pos short, DecimalText.parseDecimal64_unsigned t short]
    rfl
  · rw [if_neg short, DecimalText.newFromMySQLLarge_unsigned t _ fits]

/-- The two paths agree: whatever the `uint64` path reads, the large path reads
as the same decimal, with the same sign. -/
theorem newFromMySQLLarge_of_parseDecimal64 {s : List Char} {d : Decimal} (original : List Char) (neg : Bool)
    (short : s.length ≤ 18) (accepted : parseDecimal64 s = .ok d) :
    newFromMySQLLarge original neg s = some (.ok (if neg then d.neg else d)) := by
  rcases parseDecimal64_ok accepted with ⟨digits, rfl⟩ | ⟨I, F, rfl, digits, rfl⟩
  · rw [newFromMySQLLarge_digits original neg digits (by omega)]
    cases neg <;> rfl
  · have count : I.length + F.length ≤ 65 := by
      simp only [List.length_append, List.length_cons] at short
      omega
    rw [newFromMySQLLarge_point original neg digits count]
    cases neg <;> rfl

/-! ## Reading back what `StringMySQL` writes -/

/-- At an exponent of at least zero `StringMySQL` writes an integer: the digits
of the magnitude, then as many zeros as the exponent unless the value is zero. -/
theorem stringMySQL_text_of_nonneg {d : Decimal} (nonneg : 0 ≤ d.exp)
    (digitCount : d.value.natAbs * 10 ^ d.exp.toNat < 10 ^ 65) :
    ∃ t : DecimalText, d.stringMySQL = t.render ∧ t.value.toRat = d.toRat ∧
      t.integral.length + t.fractional.length ≤ 65 := by
  rw [stringMySQL, formatFast_of_nonneg nonneg]
  by_cases zero : d.value = 0
  · -- `0`
    refine ⟨⟨false, formatUint d.value.natAbs, [], formatUint_ne_nil _,
      by simpa using fun c => isDigit_of_mem_formatUint⟩, ?_, ?_, ?_⟩
    · simp [DecimalText.render, DecimalText.unsigned, zero]
    · exact DecimalText.toRat_value (by simp [zero]) (by simp [ofDigitChars_formatUint, zero]) (by simp; omega)
    · simp [zero, formatUint]
  · refine ⟨⟨decide (d.value < 0), formatUint d.value.natAbs ++ List.replicate d.exp.toNat '0', [],
      by simp [formatUint_ne_nil], ?_⟩, ?_, ?_, ?_⟩
    · intro c member
      simp only [List.append_nil, List.mem_append] at member
      rcases member with written | padding
      · exact isDigit_of_mem_formatUint written
      · rw [List.eq_of_mem_replicate padding]
        decide
    · simp [DecimalText.render, DecimalText.unsigned, zero]
    · refine DecimalText.toRat_value rfl ?_ (by simp; omega)
      rw [List.append_nil, Nat.ofDigitChars_append, Nat.ofDigitChars_replicate_zero, ofDigitChars_formatUint,
        Nat.mul_comm]
    · -- the magnitude has at most `65 - exp` digits
      have wide : 10 ^ d.exp.toNat ≤ d.value.natAbs * 10 ^ d.exp.toNat :=
        Nat.le_mul_of_pos_left _ (Int.natAbs_pos.mpr zero)
      have exponent : d.exp.toNat < 65 := (Nat.pow_lt_pow_iff_right (by decide)).mp (wide.trans_lt digitCount)
      have split : 10 ^ 65 = 10 ^ (65 - d.exp.toNat) * 10 ^ d.exp.toNat := by
        rw [← pow_add, Nat.sub_add_cancel exponent.le]
      rw [split] at digitCount
      have written := length_formatUint_le (by omega) (Nat.lt_of_mul_lt_mul_right digitCount)
      simp only [List.length_append, List.length_replicate, List.length_nil]
      omega

/-- Below a zero exponent with digits before the point, `StringMySQL` writes the
digits of the magnitude with the point among them. -/
theorem stringMySQL_text_of_inside {d : Decimal} (negative : d.exp < 0)
    (inside : 0 < ((formatUint d.value.natAbs).length : ℤ) + d.exp) (digitCount : d.value.natAbs < 10 ^ 65) :
    ∃ t : DecimalText, d.stringMySQL = t.render ∧ t.value.toRat = d.toRat ∧
      t.integral.length + t.fractional.length ≤ 65 := by
  rw [stringMySQL, formatFast_of_inside negative inside]
  generalize point : ((formatUint d.value.natAbs).length + d.exp).toNat = r
  have before : 0 < r ∧ r < (formatUint d.value.natAbs).length := by omega
  refine ⟨⟨decide (d.value < 0), (formatUint d.value.natAbs).take r, (formatUint d.value.natAbs).drop r,
    by simp [formatUint_ne_nil]; omega, ?_⟩, ?_, ?_, ?_⟩
  · intro c member
    rw [List.take_append_drop] at member
    exact isDigit_of_mem_formatUint member
  · have after : (formatUint d.value.natAbs).drop r ≠ [] := by simp; omega
    simp [DecimalText.render, DecimalText.unsigned, after]
  · refine DecimalText.toRat_value rfl ?_ (by simp; omega)
    rw [List.take_append_drop, ofDigitChars_formatUint, show d.exp.toNat = 0 by omega, pow_zero, Nat.mul_one]
  · rw [← List.length_append, List.take_append_drop]
    exact length_formatUint_le (by decide) digitCount

/-- Below a zero exponent with no digit before the point, `StringMySQL` writes
`0.`, the zeros that put the digits at their place, and the digits. -/
theorem stringMySQL_text_of_before {d : Decimal} (negative : d.exp < 0)
    (before : ((formatUint d.value.natAbs).length : ℤ) + d.exp ≤ 0) (fractionDigits : -30 ≤ d.exp) :
    ∃ t : DecimalText, d.stringMySQL = t.render ∧ t.value.toRat = d.toRat ∧
      t.integral.length + t.fractional.length ≤ 65 := by
  rw [stringMySQL, formatFast_of_before negative before]
  generalize padding : (-((formatUint d.value.natAbs).length + d.exp)).toNat = k
  refine ⟨⟨decide (d.value < 0), ['0'], List.replicate k '0' ++ formatUint d.value.natAbs, by simp, ?_⟩,
    ?_, ?_, ?_⟩
  · intro c member
    simp only [List.cons_append, List.nil_append, List.mem_cons, List.mem_append] at member
    rcases member with rfl | zero | written
    · decide
    · rw [List.eq_of_mem_replicate zero]
      decide
    · exact isDigit_of_mem_formatUint written
  · simp [DecimalText.render, DecimalText.unsigned, formatUint_ne_nil]
  · refine DecimalText.toRat_value rfl ?_ (by simp; omega)
    rw [show d.exp.toNat = 0 by omega, pow_zero, Nat.mul_one, Nat.ofDigitChars_append, Nat.ofDigitChars_cons,
      Nat.ofDigitChars_nil, Nat.ofDigitChars_append, Nat.ofDigitChars_replicate_zero]
    simpa using ofDigitChars_formatUint d.value.natAbs
  · simp only [List.length_cons, List.length_nil, List.length_append, List.length_replicate]
    omega

/-- Within 65 digits, at most 30 of them after the point, `StringMySQL` writes a
text of at most 65 digits that stands for the decimal. -/
theorem stringMySQL_text (d : Decimal) (fractionDigits : -30 ≤ d.exp)
    (digitCount : d.value.natAbs * 10 ^ d.exp.toNat < 10 ^ 65) :
    ∃ t : DecimalText, d.stringMySQL = t.render ∧ t.value.toRat = d.toRat ∧
      t.integral.length + t.fractional.length ≤ 65 := by
  rcases le_or_gt 0 d.exp with nonneg | negative
  · exact stringMySQL_text_of_nonneg nonneg digitCount
  · have magnitude : d.value.natAbs < 10 ^ 65 := by
      rwa [show d.exp.toNat = 0 by omega, pow_zero, Nat.mul_one] at digitCount
    rcases lt_or_ge 0 (((formatUint d.value.natAbs).length : ℤ) + d.exp) with inside | before
    · exact stringMySQL_text_of_inside negative inside magnitude
    · exact stringMySQL_text_of_before negative before fractionDigits

/-- The text of a decimal reads back as the same value: for every decimal of at
most 65 digits, at most 30 of them after the point, by whichever path its length
takes; and on a text of at most 18 characters the large path reads what the
`uint64` path reads. -/
theorem decimal_text_round_trips :
    (∀ d : Decimal, -30 ≤ d.exp → d.value.natAbs * 10 ^ d.exp.toNat < 10 ^ 65 →
      ∃ d', newFromMySQL d.stringMySQL = some (.ok d') ∧ d'.cmp d = 0) ∧
    (∀ (original : List Char) (neg : Bool) (s : List Char) (d : Decimal), s.length ≤ 18 →
      parseDecimal64 s = .ok d → newFromMySQLLarge original neg s = some (.ok (if neg then d.neg else d))) := by
  refine ⟨fun d fractionDigits digitCount => ?_, fun original neg s d short accepted => ?_⟩
  · obtain ⟨t, written, value, fits⟩ := stringMySQL_text d fractionDigits digitCount
    refine ⟨t.value, by rw [written, newFromMySQL_render t fits], ?_⟩
    by_cases zero : d.value = 0
    · -- a zero reads back as a zero, and zeros compare equal at whatever exponents
      have readZero : t.value.value = 0 := (toRat_eq_zero_iff _).mp (value.trans ((toRat_eq_zero_iff d).mpr zero))
      exact cmp_eq_zero_of_zero readZero zero
    · -- otherwise both exponents lie within 65 of zero, and `Cmp` reads the numbers exactly
      have expBelow : d.exp.toNat < 65 := by
        have one : 1 ≤ d.value.natAbs := Int.natAbs_pos.mpr zero
        have power : 10 ^ d.exp.toNat < 10 ^ 65 := lt_of_le_of_lt (Nat.le_mul_of_pos_left _ one) digitCount
        exact (Nat.pow_lt_pow_iff_right (by decide)).mp power
      have textExp : t.value.exp = -(t.fractional.length : ℤ) := by
        rw [DecimalText.value_eq]
        rfl
      have near : |t.value.exp - d.exp| < 2 ^ 31 := by
        rw [textExp, abs_lt]
        omega
      exact (cmp_eq_zero_iff near).mpr value
  · exact newFromMySQLLarge_of_parseDecimal64 original neg short accepted

end Vitess.Decimal
