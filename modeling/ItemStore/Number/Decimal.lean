import ItemStore.Number.Binary64

/-!
# Reading numbers

Integers are an optional sign and decimal digits.  Decimal numbers are a sign, digits with at most
one point among or beside them, and an optional power of ten; the words for infinity and for a
missing number are read in any case of their letters.  Reading is exact: the double that is read
is the one nearest to the decimal number that was written.
-/

namespace ItemStore

/-! ## Digits -/

/-- Whether a character is one of the ten decimal digits. -/
def isDecimalDigit (c : Char) : Bool := '0' ≤ c && c ≤ '9'

/-- The number that decimal digits write. -/
def digitsValue (digits : List Char) : Nat :=
  digits.foldl (fun n c => 10 * n + (c.toNat - '0'.toNat)) 0

/-! ## Integers -/

/-- Take an optional sign off the front: whether it was a minus, and what follows. -/
def splitSign : List Char → Bool × List Char
  | '-' :: rest => (true, rest)
  | '+' :: rest => (false, rest)
  | cs => (false, cs)

/-- Read a natural number: decimal digits, at least one, after an optional plus sign. -/
def readNatural (text : String) : Option Nat :=
  let digits := match text.toList with
    | '+' :: rest => rest
    | cs => cs
  if digits.isEmpty || !digits.all isDecimalDigit then none else some (digitsValue digits)

/-- Read an integer: decimal digits, at least one, after an optional sign. -/
def readInteger (text : String) : Option Int :=
  let (negative, digits) := splitSign text.toList
  if digits.isEmpty || !digits.all isDecimalDigit then none
  else some (if negative then -(digitsValue digits : Int) else digitsValue digits)

/-- Read a natural number below `bound`. -/
def readNaturalBelow (bound : Nat) (text : String) : Option Nat :=
  (readNatural text).filter (· < bound)

/-- Read an integer that a signed word of `bits` bits holds. -/
def readSigned (bits : Nat) (text : String) : Option Int :=
  (readInteger text).filter fun n => -(twoTo (bits - 1) : Int) ≤ n && n < twoTo (bits - 1)

/-- Read a natural number that an unsigned word of `bits` bits holds. -/
def readUnsigned (bits : Nat) (text : String) : Option Nat := readNaturalBelow (twoTo bits) text

/-! ## Decimal numbers -/

/-- A decimal number `± coefficient · 10 ^ exponent`. -/
structure Decimal where
  /-- Whether a minus sign stands in front. -/
  negative : Bool
  /-- All digits, without the point. -/
  coefficient : Nat
  /-- The power of ten that the digits are scaled by. -/
  exponent : Int
deriving DecidableEq, Repr

namespace Decimal

/-- Read what may follow the digits: nothing, or a power of ten with an optional sign. -/
def readExponent : List Char → Option Int
  | [] => some 0
  | c :: rest =>
    if c == 'e' || c == 'E' then
      let (negative, digits) := splitSign rest
      if digits.isEmpty || !digits.all isDecimalDigit then none
      else some (if negative then -(digitsValue digits : Int) else digitsValue digits)
    else none

/-- Read a decimal number: an optional sign, digits on at least one side of an optional point, and
an optional power of ten. -/
def ofChars? (cs : List Char) : Option Decimal :=
  let (negative, body) := splitSign cs
  let whole := body.takeWhile isDecimalDigit
  let rest := body.dropWhile isDecimalDigit
  let (fraction, tail) := match rest with
    | '.' :: more => (more.takeWhile isDecimalDigit, more.dropWhile isDecimalDigit)
    | _ => ([], rest)
  if whole.isEmpty && fraction.isEmpty then none
  else
    (readExponent tail).map fun e =>
      { negative, coefficient := digitsValue (whole ++ fraction), exponent := e - fraction.length }

/-- The double nearest to a decimal number.  Far outside the range of doubles the answer is zero or
infinity without the power of ten being formed. -/
def toFloat (d : Decimal) : Float :=
  let size : Int := (Nat.toDigits 10 d.coefficient).length + d.exponent
  if d.coefficient = 0 || size < -400 then Binary64.nearest d.negative 0 1
  else if size > 400 then Binary64.infinity d.negative
  else
    let (num, den) := scaled d.coefficient 10 d.exponent
    Binary64.nearest d.negative num den

end Decimal

/-- The words that stand for infinity, in lower case. -/
def infinityWords : List String := ["inf", "infinity"]

/-- Read a double: a decimal number, or the word for infinity or for a missing number. -/
def readFloat (text : String) : Option Float :=
  let (negative, body) := splitSign text.toList
  let word := String.ofList (body.map Char.toLower)
  if infinityWords.contains word then some (Binary64.infinity negative)
  else if word == "nan" then some Binary64.nan
  else (Decimal.ofChars? text.toList).map Decimal.toFloat

end ItemStore
