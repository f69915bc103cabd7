import ItemStore.Call.Basic
import ItemStore.Wire.Request

/-!
# Reading many items

A batch of reads has one table and one projection for all of its keys.  Refused are the first key
that is none and then, if there are keys at all, a path that cannot be read.
-/

namespace ItemStore

namespace Call

/-- Read the items under many keys. -/
structure BatchGet where
  /-- The table. -/
  table : String
  /-- The keys of the items. -/
  keys : List Item
  /-- The paths to return; all of an item if there are none. -/
  projection : List String := []
  /-- Whether the reads see every earlier write. -/
  consistentRead : Option Bool := none
  /-- How consumed capacity is reported. -/
  returnCapacity : Option ReturnCapacity := none

namespace BatchGet

/-- The keys of the table, as they are sent. -/
def tableKeys (b : BatchGet) : Except StoreError TableKeys := do
  let bundle ← projectionBundle b.projection
  return {
    keys := b.keys
    projection := bundle.text? .projection
    names := bundle.bindings.names
    consistentRead := b.consistentRead }

/-- The request for all keys at once.  Without keys there is no table in it, and the projection is
not looked at. -/
def compile (b : BatchGet) : Except StoreError BatchGetRequest := do
  b.keys.forM checkKey
  if b.keys.isEmpty then return { returnCapacity := b.returnCapacity }
  else
    return {
      tables := .singleton b.table (← b.tableKeys)
      returnCapacity := b.returnCapacity }

end BatchGet

end Call

end ItemStore
