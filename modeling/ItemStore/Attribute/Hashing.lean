import ItemStore.Attribute.Basic

/-!
# Hashing attribute values

A hash table finds a key by its hash before it compares it with anything.  What is hashed of an
attribute value is what it tells a `Hasher`, one call after another: its kind, and then what it
holds.  Elements of sets are told in sorted order and entries of maps in the order of their names,
so that the order in which they happen to be held leaves no trace in the hash.  Everything of no
fixed length is told with its length before it.
-/

namespace ItemStore

/-- What a hasher is told in one call. -/
inductive HashWrite where
  /-- What kind of value follows. -/
  | kind (k : AttributeKind)
  /-- How many parts follow. -/
  | length (n : Nat)
  /-- A text. -/
  | text (s : String)
  /-- Bytes. -/
  | bytes (bs : List UInt8)
  /-- A truth value. -/
  | bool (b : Bool)
deriving DecidableEq, Repr

namespace AttributeValue

/-- The elements of a set, in order. -/
def sorted {α : Type} [Ord α] (elements : List α) : List α :=
  elements.mergeSort fun a b => (compare a b).isLE

/-- What is told of bytes. -/
def bytesWrites (bs : List UInt8) : List HashWrite := [.length bs.length, .bytes bs]

/-- What is told of the elements of a set, where `writes` is told of each. -/
def setWrites {α : Type} [Ord α] (writes : α → List HashWrite) (elements : List α) :
    List HashWrite :=
  .length (sorted elements).length :: (sorted elements).flatMap writes

mutual

/-- What a hasher is told of a value. -/
def hashWrites : AttributeValue → List HashWrite
  | .string s => [.kind .string, .text s]
  | .number s => [.kind .number, .text s]
  | .binary bs => .kind .binary :: bytesWrites bs
  | .stringSet elements => .kind .stringSet :: setWrites (fun s => [.text s]) elements
  | .numberSet elements => .kind .numberSet :: setWrites (fun s => [.text s]) elements
  | .binarySet elements => .kind .binarySet :: setWrites bytesWrites elements
  | .bool b => [.kind .bool, .bool b]
  | .null b => [.kind .null, .bool b]
  | .list elements => .kind .list :: .length elements.length :: elementWrites elements
  | .map entries =>
    let told := (Keyed.ofFirst (entryWrites entries)).entries
    .kind .map :: .length told.length :: told.flatMap fun e => .text e.1 :: e.2

/-- What a hasher is told of values one after another. -/
def elementWrites : List AttributeValue → List HashWrite
  | [] => []
  | v :: rest => v.hashWrites ++ elementWrites rest

/-- What a hasher is told of the values under names. -/
def entryWrites : List (String × AttributeValue) → List (String × List HashWrite)
  | [] => []
  | (name, v) :: rest => (name, v.hashWrites) :: entryWrites rest

end

end AttributeValue

/-! ## Hashers -/

/-- A function of what it is told, call by call. -/
structure Hasher where
  /-- What a hasher remembers. -/
  State : Type
  /-- What it remembers before it is told anything. -/
  start : State
  /-- What it remembers after a call. -/
  write : State → HashWrite → State
  /-- The hash of all that it was told. -/
  finish : State → UInt64

namespace Hasher

/-- The hash of an attribute value. -/
def hash (h : Hasher) (v : AttributeValue) : UInt64 :=
  h.finish (v.hashWrites.foldl h.write h.start)

/-- An attribute value as a key of tables that hash with a hasher. -/
def Key (_ : Hasher) : Type := AttributeValue

variable {h : Hasher}

instance : BEq h.Key := inferInstanceAs (BEq AttributeValue)

instance : Hashable h.Key := ⟨h.hash⟩

end Hasher

end ItemStore
