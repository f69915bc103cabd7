import ItemStore.Call.Basic
import ItemStore.Wire.Request

/-!
# Reading one item

A read names the item by its key and may ask for some of its paths only.  Refused are a key that is
none and then a path that cannot be read.
-/

namespace ItemStore

namespace Call

/-- Read the item under a key. -/
structure Get where
  /-- The table. -/
  table : String
  /-- The key of the item. -/
  key : Item
  /-- The paths to return; all of the item if there are none. -/
  projection : List String := []
  /-- Whether the read sees every earlier write. -/
  consistentRead : Option Bool := none
  /-- How consumed capacity is reported. -/
  returnCapacity : Option ReturnCapacity := none

namespace Get

/-- The request for a read. -/
def compile (g : Get) : Except StoreError GetItemRequest := do
  checkKey g.key
  let bundle ← projectionBundle g.projection
  return {
    table := g.table
    key := g.key
    consistentRead := g.consistentRead
    projection := bundle.text? .projection
    names := bundle.bindings.names
    returnCapacity := g.returnCapacity }

/-- The same read in a transaction, which sets consistency and reports capacity for all of its
reads together. -/
def inTransaction (g : Get) : Except StoreError TransactGet := do
  let r ← g.compile
  return { table := r.table, key := r.key, projection := r.projection, names := r.names }

end Get

end Call

end ItemStore
