import ItemStore.Attribute.Basic
import ItemStore.Json.Basic
import ItemStore.Text.Base64

/-!
# Attribute values on the wire

On the wire a value is an object with one field, whose name is the kind of the value.  Bytes are
written in base64.  Reading accepts exactly the objects that writing produces.
-/

namespace ItemStore

namespace AttributeValue

/-! ## Writing -/

mutual

/-- The wire form of a value. -/
def toJson : AttributeValue → Json
  | .string s => .object [("S", .string s)]
  | .number n => .object [("N", .string n)]
  | .binary bytes => .object [("B", .string (Base64.encode bytes))]
  | .stringSet elements => .object [("SS", .array (elements.map .string))]
  | .numberSet elements => .object [("NS", .array (elements.map .string))]
  | .binarySet elements =>
    .object [("BS", .array (elements.map fun bytes => .string (Base64.encode bytes)))]
  | .bool b => .object [("BOOL", .bool b)]
  | .null b => .object [("NULL", .bool b)]
  | .list elements => .object [("L", .array (elementsToJson elements))]
  | .map entries => .object [("M", .object (entriesToJson entries))]

/-- The wire forms of the elements of a list. -/
def elementsToJson : List AttributeValue → List Json
  | [] => []
  | v :: rest => v.toJson :: elementsToJson rest

/-- The wire forms of the entries of a map. -/
def entriesToJson : List (String × AttributeValue) → List (String × Json)
  | [] => []
  | (name, v) :: rest => (name, v.toJson) :: entriesToJson rest

end

/-! ## Reading -/

/-- The bytes of a string in base64. -/
def bytes? (j : Json) : Option (List UInt8) := do Base64.decode? (← j.string?)

mutual

/-- The value of a wire form. -/
def ofJson? : Json → Option AttributeValue
  | .object [(descriptor, payload)] =>
    match descriptor, payload with
    | "S", .string s => some (.string s)
    | "N", .string n => some (.number n)
    | "B", .string s => (Base64.decode? s).map .binary
    | "SS", .array elements => (elements.mapM Json.string?).map .stringSet
    | "NS", .array elements => (elements.mapM Json.string?).map .numberSet
    | "BS", .array elements => (elements.mapM bytes?).map .binarySet
    | "BOOL", .bool b => some (.bool b)
    | "NULL", .bool b => some (.null b)
    | "L", .array elements => (elementsOfJson? elements).map .list
    | "M", .object fields => (entriesOfJson? fields).map .map
    | _, _ => none
  | _ => none

/-- The values of an array of wire forms. -/
def elementsOfJson? : List Json → Option (List AttributeValue)
  | [] => some []
  | j :: rest => do
    let v ← ofJson? j
    some (v :: (← elementsOfJson? rest))

/-- The values of the fields of an object. -/
def entriesOfJson? : List (String × Json) → Option (List (String × AttributeValue))
  | [] => some []
  | (name, j) :: rest => do
    let v ← ofJson? j
    some ((name, v) :: (← entriesOfJson? rest))

end

end AttributeValue

namespace Item

/-- The wire form of an item. -/
def toJson (item : Item) : Json := .object (AttributeValue.entriesToJson item.entries)

/-- The item of a wire form. -/
def ofJson? (j : Json) : Option Item := do
  some (Keyed.ofList (← AttributeValue.entriesOfJson? (← j.object?)))

end Item

end ItemStore
