import ItemStore.Json.Basic
import ItemStore.Json.Draft
import ItemStore.Json.Real
import ItemStore.Keyed
import ItemStore.Text.Utf8

/-!
# Reading JSON text

The last pass decodes the strings and numbers of a draft.  Escaped surrogates must come in pairs
and the bytes of a string must be UTF-8.  A number without point and exponent that fits a word of
64 bits is an integer; any other is a double, and one past the largest double is refused.
Of fields with one name the last one stays.
-/

namespace ItemStore

namespace Json

/-! ## Strings -/

/-- The bytes of a string: escaped code units are written in UTF-8, two surrogates as one
character. -/
def StringUnit.bytes? : List StringUnit → Option (List UInt8)
  | [] => some []
  | .byte b :: rest => do some (b :: (← bytes? rest))
  | .codeUnit n :: rest =>
    if 0xD800 ≤ n && n ≤ 0xDBFF then
      match rest with
      | .codeUnit m :: rest' =>
        if 0xDC00 ≤ m && m ≤ 0xDFFF then do
          let c := Char.ofNat (0x10000 + (n - 0xD800) * 0x400 + (m - 0xDC00))
          some (Utf8.encode (String.singleton c) ++ (← bytes? rest'))
        else none
      | _ => none
    else if 0xDC00 ≤ n && n ≤ 0xDFFF then none
    else do some (Utf8.encode (String.singleton (Char.ofNat n)) ++ (← bytes? rest))

/-- The text of a string. -/
def StringUnit.text? (units : List StringUnit) : Option String := do
  Utf8.decode? (← bytes? units)

/-! ## Numbers -/

/-- Whether an integer fits a signed or an unsigned word of 64 bits. -/
def fitsWord (n : Int) : Bool := -(twoTo 63 : Int) ≤ n && n < twoTo 64

/-- The number that a literal writes.  Negative zero is a double, since no integer is. -/
def number? (literal : List Char) : Option JsonNumber :=
  let whole := match literal with
    | '-' :: rest => !rest.isEmpty && rest.all isDecimalDigit && rest != ['0']
    | _ => !literal.isEmpty && literal.all isDecimalDigit
  let integer := (readInteger (String.ofList literal)).filter fun n => whole && fitsWord n
  match integer with
  | some n => some (.integer n)
  | none => (real? literal).map .real

/-! ## Values -/

mutual

/-- Decode a draft. -/
def ofDraft? : Draft → Option Json
  | .null => some .null
  | .bool b => some (.bool b)
  | .number literal => (number? literal).map .number
  | .string units => (StringUnit.text? units).map .string
  | .array elements => (ofDrafts? elements).map .array
  | .object fields => (ofDraftFields? fields).map fun es => .object (Keyed.ofList es).entries

/-- Decode the elements of an array. -/
def ofDrafts? : List Draft → Option (List Json)
  | [] => some []
  | d :: rest => do
    let j ← ofDraft? d
    some (j :: (← ofDrafts? rest))

/-- Decode the fields of an object. -/
def ofDraftFields? : List (List StringUnit × Draft) → Option (List (String × Json))
  | [] => some []
  | (name, d) :: rest => do
    let text ← StringUnit.text? name
    let j ← ofDraft? d
    some ((text, j) :: (← ofDraftFields? rest))

end

/-- Read JSON text given as bytes. -/
def ofBytes? (bytes : List UInt8) : Option Json := do ofDraft? (← Draft.ofBytes? bytes)

/-- Read JSON text. -/
def ofText? (text : String) : Option Json := ofBytes? (Utf8.encode text)

end Json

end ItemStore
