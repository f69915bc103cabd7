/-!
# Attribute paths

A path leads from an item to a value inside it: to an attribute by its name, and from there on into
maps by further names and into lists by indexes.  A path is written with a point between names and
with indexes between brackets; a point, an opening bracket or a backslash inside a name stands
after a backslash.
-/

namespace ItemStore

/-- One step of a path. -/
inductive PathElement where
  /-- To the attribute or map entry of a name. -/
  | name (text : String)
  /-- To the element of a list at an index. -/
  | index (n : Nat)
deriving DecidableEq, Repr

/-- A path to a value inside an item. -/
structure Path where
  /-- The steps, from the item on. -/
  elements : List PathElement
deriving DecidableEq, Repr

namespace Path

/-- Whether a character of a name is written after a backslash. -/
def isSpecial (c : Char) : Bool := c == '.' || c == '[' || c == '\\'

/-- A character of a name as it is written. -/
def escapeChar (c : Char) : List Char := if isSpecial c then ['\\', c] else [c]

/-- A name as it is written. -/
def escapeName (name : String) : List Char := name.toList.flatMap escapeChar

/-- An index as it is written. -/
def indexText (n : Nat) : List Char := '[' :: (Nat.toDigits 10 n ++ [']'])

/-- The steps that follow the first one as they are written. -/
def describeRest : List PathElement → List Char
  | [] => []
  | .name text :: rest => '.' :: (escapeName text ++ describeRest rest)
  | .index n :: rest => indexText n ++ describeRest rest

/-- The steps of a path as they are written: no point stands before the first one. -/
def describeElements : List PathElement → List Char
  | .name text :: rest => escapeName text ++ describeRest rest
  | elements => describeRest elements

/-- The text of a path. -/
def describe (p : Path) : String := String.ofList (describeElements p.elements)

/-- Whether a path leads to a whole attribute. -/
def isTopLevel (p : Path) : Bool :=
  match p.elements with
  | [.name _] => true
  | _ => false

end Path

end ItemStore
