/-!
# Base64

Three bytes are written as four digits of six bits each.  A last group of one or two bytes is
filled up with equals signs.  Reading is strict: it accepts exactly what writing produces, so every
digit must be of the standard alphabet, the last group must be filled up, and the bits of its last
digit that no byte uses must be zero.
-/

namespace ItemStore

namespace Base64

/-! ## Digits -/

/-- The digit for six bits. -/
def digit (n : Nat) : Char :=
  if n < 26 then Char.ofNat ('A'.toNat + n)
  else if n < 52 then Char.ofNat ('a'.toNat + (n - 26))
  else if n < 62 then Char.ofNat ('0'.toNat + (n - 52))
  else if n = 62 then '+' else '/'

/-- The six bits of a digit. -/
def digitValue? (c : Char) : Option Nat :=
  if 'A' ≤ c ∧ c ≤ 'Z' then some (c.toNat - 'A'.toNat)
  else if 'a' ≤ c ∧ c ≤ 'z' then some (c.toNat - 'a'.toNat + 26)
  else if '0' ≤ c ∧ c ≤ '9' then some (c.toNat - '0'.toNat + 52)
  else if c = '+' then some 62
  else if c = '/' then some 63
  else none

/-! ## Groups -/

/-- The digits of bytes, group by group. -/
def encodeChars : List UInt8 → List Char
  | [] => []
  | [a] => [digit (a.toNat / 4), digit (a.toNat % 4 * 16), '=', '=']
  | [a, b] =>
    [digit (a.toNat / 4), digit (a.toNat % 4 * 16 + b.toNat / 16), digit (b.toNat % 16 * 4), '=']
  | a :: b :: c :: rest =>
    digit (a.toNat / 4) :: digit (a.toNat % 4 * 16 + b.toNat / 16) ::
      digit (b.toNat % 16 * 4 + c.toNat / 64) :: digit (c.toNat % 64) :: encodeChars rest

/-- The byte of a last group of two digits. -/
def lastByte? (p q : Char) : Option (List UInt8) := do
  let a ← digitValue? p
  let b ← digitValue? q
  if b % 16 = 0 then some [UInt8.ofNat (a * 4 + b / 16)] else none

/-- The bytes of a last group of three digits. -/
def lastBytes? (p q r : Char) : Option (List UInt8) := do
  let a ← digitValue? p
  let b ← digitValue? q
  let c ← digitValue? r
  if c % 4 = 0 then
    some [UInt8.ofNat (a * 4 + b / 16), UInt8.ofNat (b % 16 * 16 + c / 4)]
  else none

/-- The bytes of a full group. -/
def group? (p q r s : Char) : Option (List UInt8) := do
  let a ← digitValue? p
  let b ← digitValue? q
  let c ← digitValue? r
  let d ← digitValue? s
  some [UInt8.ofNat (a * 4 + b / 16), UInt8.ofNat (b % 16 * 16 + c / 4),
    UInt8.ofNat (c % 4 * 64 + d)]

/-- The bytes of digits, group by group. -/
def decodeChars : List Char → Option (List UInt8)
  | [] => some []
  | [p, q, '=', '='] => lastByte? p q
  | [p, q, r, '='] => lastBytes? p q r
  | p :: q :: r :: s :: rest => do
    let first ← group? p q r s
    let more ← decodeChars rest
    some (first ++ more)
  | _ => none

/-! ## Texts -/

/-- The text of bytes. -/
def encode (bytes : List UInt8) : String := String.ofList (encodeChars bytes)

/-- The bytes of a text, if it is the text of some bytes. -/
def decode? (text : String) : Option (List UInt8) := decodeChars text.toList

end Base64

end ItemStore
