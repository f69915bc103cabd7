import ItemStore.Number.Binary64

/-!
# Durations

A duration is a count of nanoseconds.  Durations come from milliseconds, which settings are
written in, or from a number of seconds; they are shown in the largest unit of which they hold at
least one.
-/

namespace ItemStore

/-- A length of time. -/
structure Duration where
  /-- How many nanoseconds it lasts. -/
  nanos : Nat
deriving DecidableEq, Repr, Inhabited

namespace Duration

/-! ## Units -/

/-- The nanoseconds of a second. -/
def perSecond : Nat := 1000000000

/-- The nanoseconds of a millisecond. -/
def perMilli : Nat := 1000000

/-- The nanoseconds of a microsecond. -/
def perMicro : Nat := 1000

/-- The longest duration: seconds in a word of 64 bits, and a fraction of one more. -/
def max : Duration := ⟨twoTo 64 * perSecond - 1⟩

/-- A number of milliseconds. -/
def ofMillis (n : Nat) : Duration := ⟨n * perMilli⟩

/-! ## Seconds -/

/-- A duration in seconds: its whole seconds and its fraction, each as a double, and their sum. -/
def seconds (d : Duration) : Float :=
  Binary64.ofInt (d.nanos / perSecond) +
    Binary64.ofInt (d.nanos % perSecond) / Binary64.ofInt perSecond

/-- The duration of a number of seconds, to the nearest nanosecond and to the even one on a tie.  A
negative number, an infinite one and one past the longest duration have none. -/
def ofSeconds? (x : Float) : Option Duration :=
  match Binary64.magnitude? x with
  | none => none
  | some m =>
    if x < 0 then none
    else
      let (num, den) := scaled (m.mantissa * perSecond) 2 m.exponent
      let nanos := roundToEven num den
      if nanos ≤ max.nanos then some ⟨nanos⟩ else none

/-! ## Text -/

/-- A count of a unit of `per` nanoseconds, with the rest as a decimal fraction without zeros at
its end. -/
def inUnit (nanos per : Nat) (name : String) : String :=
  let digits := Nat.toDigits 10 (per + nanos % per)
  let fraction := ((digits.drop 1).reverse.dropWhile (· == '0')).reverse
  toString (nanos / per) ++ (if fraction.isEmpty then "" else "." ++ String.ofList fraction) ++ name

/-- A duration in the largest unit of which it holds at least one. -/
def describe (d : Duration) : String :=
  if perSecond ≤ d.nanos then inUnit d.nanos perSecond "s"
  else if perMilli ≤ d.nanos then inUnit d.nanos perMilli "ms"
  else if perMicro ≤ d.nanos then inUnit d.nanos perMicro "µs"
  else toString d.nanos ++ "ns"

end Duration

end ItemStore
