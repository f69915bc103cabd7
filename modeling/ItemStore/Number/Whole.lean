/-!
# Whole numbers

Powers of two, which bound words and the parts of a double, and quotients that are rounded up.
-/

namespace ItemStore

/-- A power of two. -/
def twoTo (n : Nat) : Nat := Nat.pow 2 n

/-- A quotient, rounded up: how many parts of size `d` it takes to hold `n`. -/
def ceilDiv (n d : Nat) : Nat := (n + d - 1) / d

end ItemStore
