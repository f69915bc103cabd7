import ItemStore.Attribute.Basic
import ItemStore.Error
import ItemStore.Json.Printer
import ItemStore.Text.Base64

/-!
# Plain JSON as attribute values

Plain JSON has an attribute value of its own shape: numbers keep their text, null is the null
marker, arrays are lists and objects are maps.  The way back works for every attribute value whose
numbers are numbers; sets become arrays and bytes become base64.
-/

namespace ItemStore

namespace Marshal

/-! ## From JSON -/

mutual

/-- The attribute value of a JSON value. -/
def ofJson : Json → AttributeValue
  | .null => .null true
  | .bool b => .bool b
  | .number n => .number (Json.numberText n)
  | .string s => .string s
  | .array elements => .list (ofElements elements)
  | .object fields => .map (ofFields fields)

/-- The attribute values of the elements of an array. -/
def ofElements : List Json → List AttributeValue
  | [] => []
  | j :: rest => ofJson j :: ofElements rest

/-- The attribute values of the fields of an object. -/
def ofFields : List (String × Json) → List (String × AttributeValue)
  | [] => []
  | (name, j) :: rest => (name, ofJson j) :: ofFields rest

end

/-- The item of a JSON object. -/
def item (j : Json) : Except StoreError Item :=
  match ofJson j with
  | .map entries => .ok (.ofList entries)
  | other => .error (.invalid (.notAnItem other.kind.descriptor))

/-! ## To JSON -/

/-- Read a number: a signed or unsigned integer of 64 bits, or else a finite double. -/
def number? (text : String) : Option JsonNumber :=
  match readSigned 64 text with
  | some n => some (.integer n)
  | none =>
    match readUnsigned 64 text with
    | some n => some (.integer n)
    | none => ((readFloat text).filter Binary64.isFinite).map .real

/-- Read a number, or say that the text is none. -/
def number (text : String) : Except StoreError Json :=
  match number? text with
  | some n => .ok (.number n)
  | none => .error (.invalid (.notANumber text))

/-- Bytes as JSON. -/
def bytes (b : List UInt8) : Json := .string (Base64.encode b)

mutual

/-- The JSON value of an attribute value. -/
def toJson : AttributeValue → Except StoreError Json
  | .string s => .ok (.string s)
  | .number n => number n
  | .binary b => .ok (bytes b)
  | .stringSet elements => .ok (.array (elements.map .string))
  | .numberSet elements => do return .array (← elements.mapM number)
  | .binarySet elements => .ok (.array (elements.map bytes))
  | .bool b => .ok (.bool b)
  | .null _ => .ok .null
  | .list elements => do return .array (← toElements elements)
  | .map entries => do return .object (← toFields entries)

/-- The JSON values of the elements of a list. -/
def toElements : List AttributeValue → Except StoreError (List Json)
  | [] => .ok []
  | v :: rest => do
    let j ← toJson v
    return j :: (← toElements rest)

/-- The JSON values of the entries of a map. -/
def toFields : List (String × AttributeValue) → Except StoreError (List (String × Json))
  | [] => .ok []
  | (name, v) :: rest => do
    let j ← toJson v
    return (name, j) :: (← toFields rest)

end

/-- The JSON object of an item. -/
def itemToJson (item : Item) : Except StoreError Json := toJson (.ofItem item)

end Marshal

end ItemStore
