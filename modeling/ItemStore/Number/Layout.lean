import ItemStore.Number.Shortest

/-!
# Writing numbers

A number is written with the fewest digits that read back to it.  How the digits are laid out
depends on where the number stands: `Layout.json` is the form of a JSON number, `Layout.plain` the
form of a number inside text.  The two records hold everything in which the forms differ.
-/

namespace ItemStore

/-- How the digits of a number are chosen and laid out. -/
structure Layout where
  /-- Which of two shortest texts is taken when both are equally near to the number. -/
  tie : Tie
  /-- Whether a number whose first digit stands for this power of ten is written without one. -/
  positional : Int → Bool
  /-- What follows the digits of a whole number in positional form. -/
  wholeEnd : String

namespace Layout

/-- The form of a number in JSON: positional from a hundred thousandth to below ten to the
sixteenth, with one digit at least after the point.  A tie goes to the even digit. -/
def json : Layout where
  tie := .toEven
  positional e := -5 ≤ e && e < 16
  wholeEnd := ".0"

/-- The form of a number in text: always positional, and a whole number has no point.  A tie goes
away from zero. -/
def plain : Layout where
  tie := .away
  positional _ := true
  wholeEnd := ""

/-! ## The two ways to lay digits out -/

/-- Digits around a decimal point, filled up with zeros where the digits do not reach it. -/
def inPlace (layout : Layout) (digits : List Char) (exponent : Int) : String :=
  match exponent with
  | .ofNat e => String.ofList (digits ++ List.replicate e '0') ++ layout.wholeEnd
  | .negSucc e =>
    let places := e + 1
    if digits.length ≤ places then
      "0." ++ String.ofList (List.replicate (places - digits.length) '0' ++ digits)
    else
      let whole := digits.take (digits.length - places)
      String.ofList whole ++ "." ++ String.ofList (digits.drop (digits.length - places))

/-- One digit, the others after a point, and the power of ten with its sign. -/
def scientific (digits : List Char) (lead : Int) : String :=
  let mantissa := match digits with
    | [] => ""
    | [d] => String.ofList [d]
    | d :: rest => String.ofList (d :: '.' :: rest)
  mantissa ++ "e" ++ (if lead < 0 then "-" else "+") ++ toString lead.natAbs

/-- The text of a positive decimal number. -/
def decimal (layout : Layout) (d : ShortDecimal) : String :=
  let digits := Nat.toDigits 10 d.digits
  if layout.positional d.lead then layout.inPlace digits d.exponent else scientific digits d.lead

/-! ## Whole texts -/

/-- The text of a double. -/
def float (layout : Layout) (x : Float) : String :=
  let sign := if Binary64.isNegative x then "-" else ""
  match Binary64.magnitude? x with
  | none => if x.isNaN then "NaN" else sign ++ "inf"
  | some m =>
    if m.mantissa = 0 then sign ++ "0" ++ layout.wholeEnd
    else sign ++ layout.decimal (.ofMagnitude layout.tie m)

end Layout

end ItemStore
