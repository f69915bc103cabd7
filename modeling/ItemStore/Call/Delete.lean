import ItemStore.Call.Basic
import ItemStore.Wire.Request

/-!
# Deleting one item

A delete removes the item under a key, if its conditions hold of that item.  Refused are a key that
is none and then a condition that makes no sense.
-/

namespace ItemStore

namespace Call

/-- Delete the item under a key. -/
structure Delete where
  /-- The table. -/
  table : String
  /-- The key of the item. -/
  key : Item
  /-- What has to hold of the item that is there. -/
  conditions : List (Condition String) := []
  /-- What to return. -/
  returns : WriteReturns := {}

namespace Delete

/-- The request for a delete. -/
def compile (d : Delete) : Except StoreError DeleteItemRequest := do
  checkKey d.key
  let bundle ← guardBundle d.conditions
  return {
    table := d.table
    key := d.key
    condition := bundle.text? .condition
    bindings := bundle.bindings
    returns := d.returns }

/-- The same delete in a transaction. -/
def inTransaction (d : Delete) : Except StoreError TransactDelete := do
  let r ← d.compile
  return {
    table := r.table
    key := r.key
    condition := r.condition
    bindings := r.bindings
    onFailure := r.returns.onFailure }

end Delete

end Call

end ItemStore
