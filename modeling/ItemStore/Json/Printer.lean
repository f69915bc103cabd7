import ItemStore.Json.Basic
import ItemStore.Number.Layout

/-!
# Writing JSON text

A value is written without any blanks.  Inside strings the quote, the backslash and the control
characters are escaped and all other characters stand for themselves; fields keep their order.
-/

namespace ItemStore

namespace Json

/-- The hexadecimal digits of a code point below 256, two of them. -/
def hexByte (n : Nat) : String :=
  String.ofList [Nat.digitChar (n / 16), Nat.digitChar (n % 16)]

/-- A character as it stands inside a JSON string. -/
def escapeChar (c : Char) : String :=
  match c with
  | '"' => "\\\""
  | '\\' => "\\\\"
  | '\x08' => "\\b"
  | '\x0c' => "\\f"
  | '\n' => "\\n"
  | '\r' => "\\r"
  | '\t' => "\\t"
  | c => if c.toNat < 32 then "\\u00" ++ hexByte c.toNat else String.singleton c

/-- A text as a JSON string. -/
def quote (s : String) : String :=
  s.toList.foldl (fun acc c => acc ++ escapeChar c) "\"" ++ "\""

/-- The text of a number. -/
def numberText : JsonNumber → String
  | .integer n => toString n
  | .real x => Layout.json.float x

mutual

/-- The text of a JSON value. -/
def compact : Json → String
  | .null => "null"
  | .bool true => "true"
  | .bool false => "false"
  | .number n => numberText n
  | .string s => quote s
  | .array elements => "[" ++ ",".intercalate (compactElements elements) ++ "]"
  | .object fields => "\x7b" ++ ",".intercalate (compactFields fields) ++ "\x7d"

/-- The texts of the elements of an array. -/
def compactElements : List Json → List String
  | [] => []
  | j :: rest => j.compact :: compactElements rest

/-- The texts of the fields of an object. -/
def compactFields : List (String × Json) → List String
  | [] => []
  | (name, j) :: rest => (quote name ++ ":" ++ j.compact) :: compactFields rest

end

end Json

end ItemStore
