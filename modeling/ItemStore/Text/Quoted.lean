import ItemStore.Text.Shapeless

/-!
# Quoted texts

A quoted text stands between double quotes.  Quotes and backslashes inside it are written after a
backslash, the common control characters by a letter after a backslash, and any other character
without a shape of its own by its code point.  A list of texts is written between brackets.
-/

namespace ItemStore

namespace Quoted

/-- A character by its code point, in base sixteen between braces. -/
def codePoint (c : Char) : String :=
  "\\u\x7b" ++ String.ofList (Nat.toDigits 16 c.toNat) ++ "\x7d"

/-- A character as it stands between double quotes. -/
def char (c : Char) : String :=
  match c with
  | '\x00' => "\\0"
  | '\t' => "\\t"
  | '\n' => "\\n"
  | '\r' => "\\r"
  | '"' => "\\\""
  | '\\' => "\\\\"
  | c => if isShapeless c then codePoint c else String.singleton c

/-- A text between double quotes. -/
def text (s : String) : String := "\"" ++ String.join (s.toList.map char) ++ "\""

/-- A list of quoted texts between brackets. -/
def list (texts : List String) : String := "[" ++ ", ".intercalate (texts.map text) ++ "]"

end Quoted

end ItemStore
