import ItemStore.Attribute.Wire

/-!
# Codecs

A codec is a pair of functions between the values of a type and JSON.  The structures of requests
and responses are put together from the codecs of their parts: a `Record` describes the fields of an
object once, for writing and for reading.

A field is written in one of four ways.

* `required`: always, and it has to be there on reading.
* `optional`: only if there is a value; null and a missing field both read as none.
* `sparse`: only if the collection is not empty; a missing field reads as the empty collection.
* `filled`: always; a missing field reads as a fixed value.

Fields that a record does not know are passed over.
-/

namespace ItemStore

/-- How values of a type are written in JSON and read back. -/
structure Codec (α : Type) where
  /-- The JSON value of a value. -/
  encode : α → Json
  /-- The value of a JSON value, if it has one. -/
  decode : Json → Option α

namespace Codec

/-- Texts. -/
def text : Codec String := ⟨.string, Json.string?⟩

/-- Truth values. -/
def bool : Codec Bool := ⟨.bool, Json.bool?⟩

/-- Doubles. -/
def float : Codec Float := ⟨.ofFloat, Json.float?⟩

/-- The integer of a JSON value as a word of 32 bits, if it fits. -/
def int32? (j : Json) : Option Int32 :=
  (j.integer?.filter fun n => -(twoTo 31 : Int) ≤ n && n < twoTo 31).map Int32.ofInt

/-- Words of 32 bits. -/
def int32 : Codec Int32 := ⟨fun n => .ofInt n.toInt, int32?⟩

/-- Attribute values. -/
def value : Codec AttributeValue := ⟨AttributeValue.toJson, AttributeValue.ofJson?⟩

/-- Items and keys. -/
def item : Codec Item := ⟨Item.toJson, Item.ofJson?⟩

/-- Lists. -/
def list {α : Type} (c : Codec α) : Codec (List α) where
  encode xs := .array (xs.map c.encode)
  decode j := do (← j.array?).mapM c.decode

/-- Collections. -/
def keyed {α : Type} (c : Codec α) : Codec (Keyed α) where
  encode xs := .object (xs.entries.map fun e => (e.1, c.encode e.2))
  decode j := do
    let entries ← (← j.object?).mapM fun e => (c.decode e.2).map fun x => (e.1, x)
    some (Keyed.ofList entries)

/-- A choice among some values, each written as its label. -/
def labels {α : Type} (label : α → String) (choices : List α) : Codec α where
  encode x := .string (label x)
  decode j := do
    let text ← j.string?
    choices.find? fun x => label x == text

end Codec

/-- How values of a type are written as the fields of an object and read back. -/
structure Record (α : Type) where
  /-- The names of the fields. -/
  names : List String
  /-- The fields that are written for a value. -/
  write : α → List (String × Json)
  /-- The value that fields describe, if they do. -/
  read : List (String × Json) → Option α

namespace Record

variable {α β : Type}

/-- A field that is always there. -/
def required (name : String) (c : Codec α) : Record α where
  names := [name]
  write x := [(name, c.encode x)]
  read fields := do c.decode (← fields.lookup name)

/-- A field that is there if there is a value. -/
def optional (name : String) (c : Codec α) : Record (Option α) where
  names := [name]
  write x := match x with
    | some x => [(name, c.encode x)]
    | none => []
  read fields := match fields.lookup name with
    | none => some none
    | some .null => some none
    | some j => (c.decode j).map some

/-- A field that is there unless its value counts as empty. -/
def sparse (name : String) (c : Codec α) (isEmpty : α → Bool) (empty : α) : Record α where
  names := [name]
  write x := if isEmpty x then [] else [(name, c.encode x)]
  read fields := match fields.lookup name with
    | none => some empty
    | some j => c.decode j

/-- A field that is always written and may be missing on reading. -/
def filled (name : String) (c : Codec α) (missing : α) : Record α where
  names := [name]
  write x := [(name, c.encode x)]
  read fields := match fields.lookup name with
    | none => some missing
    | some j => c.decode j

/-- A sparse field that holds a collection. -/
def sparseKeyed (name : String) (c : Codec α) : Record (Keyed α) :=
  sparse name c.keyed Keyed.isEmpty .empty

/-- A sparse field that holds an item. -/
def sparseItem (name : String) : Record Item := sparse name .item Keyed.isEmpty .empty

/-- A sparse field that holds a list. -/
def sparseList (name : String) (c : Codec α) : Record (List α) :=
  sparse name c.list List.isEmpty []

/-- The fields of two records. -/
def pair (a : Record α) (b : Record β) : Record (α × β) where
  names := a.names ++ b.names
  write x := a.write x.1 ++ b.write x.2
  read fields := do
    let x ← a.read fields
    let y ← b.read fields
    some (x, y)

/-- The same fields for the values of another type. -/
def iso (pack : α → β) (unpack : β → α) (a : Record α) : Record β where
  names := a.names
  write x := a.write (unpack x)
  read fields := (a.read fields).map pack

/-- The codec of the objects that a record describes. -/
def codec (a : Record α) : Codec α where
  encode x := .object (a.write x)
  decode j := do a.read (← j.object?)

end Record

end ItemStore
