import ItemStore.Keyed

/-!
# Attribute values

An item is a collection of named attribute values.  An attribute value is text, a number, bytes, a
truth value, the null marker, a set of one of the first three, a list or a map.  Numbers are kept
as text, so that no digit is lost.

Two values are equal when they hold the same: the order of set elements and of map entries does
not count, repeated set elements do.  Under each name of a map the first entry counts.
-/

namespace ItemStore

/-- What an attribute value can be. -/
inductive AttributeKind where
  | string
  | number
  | binary
  | stringSet
  | numberSet
  | binarySet
  | bool
  | null
  | list
  | map
deriving DecidableEq, Repr

namespace AttributeKind

/-- Every kind. -/
def all : List AttributeKind :=
  [.string, .number, .binary, .stringSet, .numberSet, .binarySet, .bool, .null, .list, .map]

/-- The name of a kind in requests. -/
def descriptor : AttributeKind → String
  | .string => "S"
  | .number => "N"
  | .binary => "B"
  | .stringSet => "SS"
  | .numberSet => "NS"
  | .binarySet => "BS"
  | .bool => "BOOL"
  | .null => "NULL"
  | .list => "L"
  | .map => "M"

/-- The kind of a name. -/
def ofDescriptor? (name : String) : Option AttributeKind := all.find? fun k => k.descriptor == name

end AttributeKind

/-- A typed value of an attribute.  The entries of a map are the entries of a collection: every
name once. -/
inductive AttributeValue where
  | string (text : String)
  | number (text : String)
  | binary (bytes : List UInt8)
  | stringSet (elements : List String)
  | numberSet (elements : List String)
  | binarySet (elements : List (List UInt8))
  | bool (b : Bool)
  | null (b : Bool)
  | list (elements : List AttributeValue)
  | map (entries : List (String × AttributeValue))

/-- An item: attribute values under their names. -/
abbrev Item := Keyed AttributeValue

namespace AttributeValue

instance : Inhabited AttributeValue := ⟨.null true⟩

/-! ## Kinds -/

/-- The kind of a value. -/
def kind : AttributeValue → AttributeKind
  | .string _ => .string
  | .number _ => .number
  | .binary _ => .binary
  | .stringSet _ => .stringSet
  | .numberSet _ => .numberSet
  | .binarySet _ => .binarySet
  | .bool _ => .bool
  | .null _ => .null
  | .list _ => .list
  | .map _ => .map

/-- Whether a value is a set. -/
def isSet : AttributeValue → Bool
  | .stringSet _ => true
  | .numberSet _ => true
  | .binarySet _ => true
  | _ => false

/-- Whether a value is the null marker; the marker can be switched off. -/
def isNull : AttributeValue → Bool
  | .null b => b
  | _ => false

/-! ## Parts -/

/-- The text of a text value. -/
def string? : AttributeValue → Option String
  | .string s => some s
  | _ => none

/-- The digits of a number. -/
def number? : AttributeValue → Option String
  | .number n => some n
  | _ => none

/-- The truth value of a truth value. -/
def bool? : AttributeValue → Option Bool
  | .bool b => some b
  | _ => none

/-- The elements of a list. -/
def list? : AttributeValue → Option (List AttributeValue)
  | .list elements => some elements
  | _ => none

/-- The entries of a map, as an item. -/
def map? : AttributeValue → Option Item
  | .map entries => some (Keyed.ofList entries)
  | _ => none

/-- The map with the entries of an item. -/
def ofItem (item : Item) : AttributeValue := .map item.entries

/-! ## Equality -/

mutual

/-- Whether two values hold the same. -/
def same : AttributeValue → AttributeValue → Bool
  | .string a, .string b => a == b
  | .number a, .number b => a == b
  | .binary a, .binary b => a == b
  | .stringSet a, .stringSet b => a.isPerm b
  | .numberSet a, .numberSet b => a.isPerm b
  | .binarySet a, .binarySet b => a.isPerm b
  | .bool a, .bool b => a == b
  | .null a, .null b => a == b
  | .list a, .list b => sameElements a b
  | .map a, .map b =>
    a.all (fun e => (b.lookup e.1).isSome) &&
      b.all fun e => (b.lookup e.1).all fun x => sameUnder e.1 a x
  | _, _ => false

/-- Whether two lists hold the same, position by position. -/
def sameElements : List AttributeValue → List AttributeValue → Bool
  | [], [] => true
  | a :: as, b :: bs => a.same b && sameElements as bs
  | _, _ => false

/-- Whether the first entry under a name holds the same as a value. -/
def sameUnder (name : String) : List (String × AttributeValue) → AttributeValue → Bool
  | [], _ => false
  | (n, a) :: rest, x => if name == n then a.same x else sameUnder name rest x

end

instance : BEq AttributeValue := ⟨same⟩

end AttributeValue

/-- Collections are equal when they hold equal values under the same keys. -/
instance {α : Type} [BEq α] : BEq (Keyed α) := ⟨fun a b => a.entries == b.entries⟩

end ItemStore
