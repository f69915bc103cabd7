import ItemStore.Number.Decimal

/-!
# JSON values

A JSON value is a tree.  Numbers are integers or doubles, and the two never mix: `1` and `1.0` are
different values.  The fields of an object are a list, in the order in which they were written.
-/

namespace ItemStore

/-- A JSON number. -/
inductive JsonNumber where
  /-- A number written without point and exponent that fits a word of 64 bits. -/
  | integer (n : Int)
  /-- Any other number. -/
  | real (x : Float)

/-- A JSON value. -/
inductive Json where
  | null
  | bool (b : Bool)
  | number (n : JsonNumber)
  | string (text : String)
  | array (elements : List Json)
  | object (fields : List (String × Json))

instance : Inhabited Json := ⟨.null⟩

namespace Json

/-! ## Building -/

/-- An integer as a JSON value. -/
def ofInt (n : Int) : Json := .number (.integer n)

/-- A natural number as a JSON value. -/
def ofNat (n : Nat) : Json := .number (.integer n)

/-- A double as a JSON value; what is no finite number is null. -/
def ofFloat (x : Float) : Json := if Binary64.isFinite x then .number (.real x) else .null

/-! ## Reading -/

/-- The value of a field of an object. -/
def field? (j : Json) (name : String) : Option Json :=
  match j with
  | .object fields => fields.lookup name
  | _ => none

/-- The text of a string value. -/
def string? : Json → Option String
  | .string s => some s
  | _ => none

/-- The truth value of a Boolean value. -/
def bool? : Json → Option Bool
  | .bool b => some b
  | _ => none

/-- The elements of an array. -/
def array? : Json → Option (List Json)
  | .array elements => some elements
  | _ => none

/-- The field of an object that has no other. -/
def single? : Json → Option (String × Json)
  | .object [field] => some field
  | _ => none

/-- The fields of an object. -/
def object? : Json → Option (List (String × Json))
  | .object fields => some fields
  | _ => none

/-- The number of an integer value. -/
def integer? : Json → Option Int
  | .number (.integer n) => some n
  | _ => none

/-- The number of an integer value that is not negative. -/
def natural? (j : Json) : Option Nat := (j.integer?.filter (0 ≤ ·)).map Int.toNat

/-- The double of a number value; an integer is read as the nearest double. -/
def float? : Json → Option Float
  | .number (.integer n) => some (Binary64.ofInt n)
  | .number (.real x) => some x
  | _ => none

end Json

end ItemStore
