import ItemStore.Call.Basic
import ItemStore.Wire.Request

/-!
# Putting one item

A put writes a whole item, if its conditions hold of the item that is there.  Refused are an empty
item and then a condition that makes no sense.
-/

namespace ItemStore

namespace Call

/-- Put an item in the place of the one under its key. -/
structure Put where
  /-- The table. -/
  table : String
  /-- The item. -/
  item : Item
  /-- What has to hold of the item that is there. -/
  conditions : List (Condition String) := []
  /-- What to return. -/
  returns : WriteReturns := {}

namespace Put

/-- The request for a put. -/
def compile (p : Put) : Except StoreError PutItemRequest := do
  checkItem p.item
  let bundle ← guardBundle p.conditions
  return {
    table := p.table
    item := p.item
    condition := bundle.text? .condition
    bindings := bundle.bindings
    returns := p.returns }

/-- The same put in a transaction. -/
def inTransaction (p : Put) : Except StoreError TransactPut := do
  let r ← p.compile
  return {
    table := r.table
    item := r.item
    condition := r.condition
    bindings := r.bindings
    onFailure := r.returns.onFailure }

end Put

end Call

end ItemStore
