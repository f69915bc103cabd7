import ItemStore.Attribute.Basic
import ItemStore.Text.Quoted

/-!
# Showing attribute values

A value is shown as its kind and its content between braces.  Bytes and containers are shown by
their size only, so that the text stays short.
-/

namespace ItemStore

namespace AttributeValue

/-- A count with the noun it counts. -/
def counted (n : Nat) (noun : String) : String := toString n ++ " " ++ noun

/-- What is shown of the content of a value. -/
def content : AttributeValue → String
  | .string s => s
  | .number n => n
  | .binary bytes => counted bytes.length "bytes"
  | .stringSet elements => Quoted.list elements
  | .numberSet elements => Quoted.list elements
  | .binarySet elements => counted elements.length "items"
  | .bool b => if b then "true" else "false"
  | .null b => if b then "true" else "false"
  | .list elements => counted elements.length "items"
  | .map entries => counted entries.length "keys"

/-- The text of a value for a reader. -/
def describe (v : AttributeValue) : String :=
  "\x7b" ++ v.kind.descriptor ++ ": " ++ v.content ++ "\x7d"

end AttributeValue

end ItemStore
