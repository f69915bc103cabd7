import ItemStore.Number.Whole

/-!
# Double precision numbers and exact ratios

A finite double is a sign and a magnitude `mantissa · 2 ^ exponent`.  `magnitude?` takes a double
apart, and `nearest` finds the double closest to a ratio of natural numbers, with the even
mantissa on a tie.  Both work on exact integers, so that reading and writing numbers never
depends on a rounding step in between.
-/

namespace ItemStore

/-! ## Rounding a ratio -/

/-- The integer nearest to `num / den`, the even one of two that are equally near. -/
def roundToEven (num den : Nat) : Nat :=
  let q := num / den
  let r := num % den
  if 2 * r > den || (2 * r == den && q % 2 == 1) then q + 1 else q

/-- The multiple of two powers that stands for `num · base ^ exponent`, as numerator and
denominator. -/
def scaled (num base : Nat) (exponent : Int) : Nat × Nat :=
  match exponent with
  | .ofNat e => (num * Nat.pow base e, 1)
  | .negSucc e => (num, Nat.pow base (e + 1))

namespace Binary64

/-! ## Taking a double apart -/

/-- The magnitude `mantissa · 2 ^ exponent` of a finite double. -/
structure Magnitude where
  /-- The digits of the number in base two. -/
  mantissa : Nat
  /-- The power of two they are scaled by. -/
  exponent : Int
deriving DecidableEq, Repr

/-- Whether the sign bit of a double is set; negative zero has it set. -/
def isNegative (x : Float) : Bool := x.toBits.toNat ≥ twoTo 63

/-- The magnitude of a finite double; infinities and NaN have none. -/
def magnitude? (x : Float) : Option Magnitude :=
  let bits : Nat := x.toBits.toNat % twoTo 63
  let field : Nat := bits / twoTo 52
  let fraction : Nat := bits % twoTo 52
  if field = 2047 then none
  else if field = 0 then some ⟨fraction, -1074⟩
  else some ⟨fraction + twoTo 52, (field : Int) - 1075⟩

/-- Whether a double is a number at all: neither infinite nor NaN. -/
def isFinite (x : Float) : Bool := (magnitude? x).isSome

/-! ## The nearest double -/

/-- The bits of positive infinity. -/
def infinityBits : Nat := 2047 * twoTo 52

/-- The exponent at which `num / den` has a mantissa of 53 bits, or the least exponent there is
if that one is larger. -/
def mantissaExponent (num den : Nat) : Int :=
  let guess : Int := (num.log2 : Int) - (den.log2 : Int) - 52
  let short : Bool := (scaled 1 2 guess).1 * den * twoTo 52 > num * (scaled 1 2 guess).2
  max (-1074) (if short then guess - 1 else guess)

/-- The bits of the positive double nearest to `num / den`. -/
def nearestBits (num den : Nat) : Nat :=
  if num = 0 then 0
  else
    let e := mantissaExponent num den
    let (up, down) := scaled 1 2 e
    let m := roundToEven (num * down) (den * up)
    let bits := if m < twoTo 52 then m else (e + 1075).toNat * twoTo 52 + (m - twoTo 52)
    min bits infinityBits

/-- The double nearest to `num / den`, with a sign. -/
def nearest (negative : Bool) (num den : Nat) : Float :=
  Float.ofBits (UInt64.ofNat (nearestBits num den + if negative then twoTo 63 else 0))

/-- The infinity of a sign. -/
def infinity (negative : Bool) : Float :=
  Float.ofBits (UInt64.ofNat (infinityBits + if negative then twoTo 63 else 0))

/-- The double that is no number. -/
def nan : Float := Float.ofBits (UInt64.ofNat (infinityBits + twoTo 51))

/-- The double nearest to an integer. -/
def ofInt (n : Int) : Float := nearest (n < 0) n.natAbs 1

end Binary64

end ItemStore
