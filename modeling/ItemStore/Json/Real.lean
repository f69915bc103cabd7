import ItemStore.Number.Decimal

/-!
# Doubles in JSON text

A number that is no integer is read in double arithmetic.  Its digits are gathered in a word of 64
bits as far as there is room; the word becomes a double and is multiplied or divided by the power of
ten that is left.  Each step rounds, so a number of many digits may be read as a neighbour of the
double nearest to it.  A number past the largest double is refused.
-/

namespace ItemStore

namespace Json

/-! ## Gathering digits -/

/-- A word with one more digit, if there is room for it. -/
def widen? (word : Nat) (digit : Char) : Option Nat :=
  let wider := word * 10 + (digit.toNat - '0'.toNat)
  if wider < twoTo 64 then some wider else none

/-- Gather the digits before the point, and count those for which there is no room. -/
def gatherWhole (word : Nat) : List Char → Nat × Nat
  | [] => (word, 0)
  | c :: rest =>
    match widen? word c with
    | some wider => gatherWhole wider rest
    | none => (word, rest.length + 1)

/-- Gather the digits behind the point, and count them; from the first on for which there is no room
they are dropped. -/
def gatherFraction (word : Nat) : List Char → Nat × Nat
  | [] => (word, 0)
  | c :: rest =>
    match widen? word c with
    | some wider =>
      let (word, count) := gatherFraction wider rest
      (word, count + 1)
    | none => (word, 0)

/-! ## Scaling -/

/-- The greatest power of ten that is a double. -/
def mostTens : Nat := 308

/-- The double nearest to a power of ten. -/
def tens (n : Nat) : Float := Binary64.nearest false (Nat.pow 10 n) 1

/-- Divide by a power of ten, in as many steps as it takes. -/
def divideByTens (x : Float) (n : Nat) : Float :=
  if n ≤ mostTens then x / tens n
  else if x == Binary64.ofInt 0 then x
  else divideByTens (x / tens mostTens) (n - mostTens)
termination_by n
decreasing_by
  simp only [mostTens] at *
  omega

/-- Multiply by a power of ten, if that is a double. -/
def multiplyByTens? (x : Float) (n : Nat) : Option Float :=
  if n ≤ mostTens then some (x * tens n)
  else if x == Binary64.ofInt 0 then some x
  else none

/-- A word scaled by a power of ten, if that is a double. -/
def scaleWord? (word : Nat) (exponent : Int) : Option Float :=
  let x := Binary64.ofInt word
  (match exponent with
    | .ofNat n => multiplyByTens? x n
    | .negSucc n => some (divideByTens x (n + 1))).filter Binary64.isFinite

/-! ## Reading -/

/-- The double that a literal is read as. -/
def real? (literal : List Char) : Option Float := do
  let (negative, body) := splitSign literal
  let rest := body.dropWhile isDecimalDigit
  let (fraction, tail) := match rest with
    | '.' :: more => (more.takeWhile isDecimalDigit, more.dropWhile isDecimalDigit)
    | _ => ([], rest)
  let exponent ← Decimal.readExponent tail
  let (whole, skipped) := gatherWhole 0 (body.takeWhile isDecimalDigit)
  let (word, places) := gatherFraction whole fraction
  let x ← scaleWord? word (skipped - places + exponent)
  return if negative then -x else x

end Json

end ItemStore
