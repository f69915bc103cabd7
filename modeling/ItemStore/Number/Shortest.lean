import ItemStore.Number.Binary64

/-!
# The shortest decimal that reads back

Every finite double is the nearest double to a whole interval of real numbers.  Its shortest
decimal is the one with the fewest digits inside that interval, and of those the one nearest to
the double itself.  For each count of digits only two candidates need a test: the two neighbours
of the double on the decimal grid of that many digits.  Where the double stands exactly halfway
between them, the caller's `Tie` decides.
-/

namespace ItemStore

/-- The decimal number `digits · 10 ^ exponent`. -/
structure ShortDecimal where
  /-- All significant digits; the last one is not zero. -/
  digits : Nat
  /-- The power of ten that the digits are scaled by. -/
  exponent : Int
deriving DecidableEq, Repr

/-- Which of two decimal neighbours is taken for a double exactly halfway between them. -/
inductive Tie where
  /-- The neighbour whose last digit is even. -/
  | toEven
  /-- The neighbour of the greater magnitude. -/
  | away
deriving DecidableEq, Repr

/-- Whether the lower of two neighbours wins a tie, given its digits. -/
def Tie.takesLower (tie : Tie) (digits : Nat) : Bool :=
  match tie with
  | .toEven => digits % 2 = 0
  | .away => false

namespace ShortDecimal

/-! ## The interval of a double -/

/-- The ratio of two natural numbers, for comparisons. -/
structure Ratio where
  /-- The numerator. -/
  num : Nat
  /-- The denominator. -/
  den : Nat

/-- The ratio `m · 2 ^ e`. -/
def Ratio.ofBinary (m : Nat) (e : Int) : Ratio :=
  let (num, den) := scaled m 2 e
  ⟨num, den⟩

/-- Whether one ratio is at most another. -/
def Ratio.le (a b : Ratio) : Bool := a.num * b.den ≤ b.num * a.den

/-- Whether one ratio is less than another. -/
def Ratio.lt (a b : Ratio) : Bool := a.num * b.den < b.num * a.den

/-- The real numbers that round to a double, with the double itself in their midst. -/
structure Interval where
  /-- The least real number that rounds to the double. -/
  low : Ratio
  /-- The double. -/
  value : Ratio
  /-- The greatest real number that rounds to the double. -/
  high : Ratio
  /-- Whether the two ends themselves round to the double. -/
  closed : Bool

/-- The interval of the double with a given magnitude.  The gap below a power of two is half as
wide as the gap above it, except among the least doubles. -/
def Interval.of (m : Binary64.Magnitude) : Interval :=
  let narrow := m.mantissa = twoTo 52 && m.exponent > -1074
  { low := .ofBinary (4 * m.mantissa - if narrow then 1 else 2) (m.exponent - 2)
    value := .ofBinary (4 * m.mantissa) (m.exponent - 2)
    high := .ofBinary (4 * m.mantissa + 2) (m.exponent - 2)
    closed := m.mantissa % 2 = 0 }

/-- Whether a real number rounds to the double of an interval. -/
def Interval.holds (i : Interval) (x : Ratio) : Bool :=
  if i.closed then i.low.le x && x.le i.high else i.low.lt x && x.lt i.high

/-! ## The decimal grids -/

/-- The decimal number `n · 10 ^ e` as a ratio. -/
def ratio (n : Nat) (e : Int) : Ratio :=
  let (num, den) := scaled n 10 e
  ⟨num, den⟩

/-- The greatest power of ten that is at most `x`. -/
def leadingExponent (x : Ratio) : Int :=
  let guess := ((x.num.log2 : Int) - x.den.log2) * 1233 / 4096
  (([guess + 2, guess + 1, guess, guess - 1] : List Int).find?
    (fun e => (ratio 1 e).le x)).getD (guess - 2)

/-- The number of an interval with `count` significant digits that is nearest to its double, if
there is one; of two equally near ones the one that `tie` names. -/
def onGrid? (tie : Tie) (i : Interval) (lead : Int) (count : Nat) : Option ShortDecimal :=
  let e := lead - count + 1
  let unit := ratio 1 e
  let num := i.value.num * unit.den
  let den := i.value.den * unit.num
  let below := num / den
  let rest := num % den
  let down := i.holds (ratio below e)
  let up := i.holds (ratio (below + 1) e)
  let lower := 2 * rest < den || (2 * rest = den && tie.takesLower below)
  match down, up with
  | true, true => some ⟨if lower then below else below + 1, e⟩
  | true, false => some ⟨below, e⟩
  | false, true => some ⟨below + 1, e⟩
  | false, false => none

/-- Drop zeros from the end of the digits; a number of `fuel` digits has no more than that. -/
def dropZeros : Nat → ShortDecimal → ShortDecimal
  | 0, d => d
  | fuel + 1, d =>
    if d.digits ≠ 0 ∧ d.digits % 10 = 0 then dropZeros fuel ⟨d.digits / 10, d.exponent + 1⟩ else d

/-- The shortest decimal of a positive double.  Seventeen digits always suffice. -/
def ofMagnitude (tie : Tie) (m : Binary64.Magnitude) : ShortDecimal :=
  let i := Interval.of m
  let lead := leadingExponent i.value
  let found := (List.range 17).findSome? fun n => onGrid? tie i lead (n + 1)
  dropZeros 18 (found.getD ⟨0, 0⟩)

/-- The power of ten of the first digit. -/
def lead (d : ShortDecimal) : Int := (Nat.toDigits 10 d.digits).length + d.exponent - 1

end ShortDecimal

end ItemStore
