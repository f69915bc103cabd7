import ItemStore.Call.Basic
import ItemStore.Wire.Request

/-!
# Updating one item

An update changes parts of the item under a key, if its conditions hold of that item.  Its actions
were checked when they were added, so what is refused is a key that is none, an update without
actions, and then a condition that makes no sense.
-/

namespace ItemStore

namespace Call

/-- Change the item under a key, which comes into being if it is not there. -/
structure Update where
  /-- The table. -/
  table : String
  /-- The key of the item. -/
  key : Item
  /-- The changes. -/
  updates : Updates := .empty
  /-- What has to hold of the item that is there. -/
  conditions : List (Condition String) := []
  /-- What to return. -/
  returns : WriteReturns := {}

namespace Update

/-- The expressions of an update and its condition. -/
def bundle (u : Update) : Except StoreError Bundle := do
  let bundle ← Bundle.empty.withUpdate u.updates.actions
  return (← bundle.withCondition .condition (Condition.chain u.conditions)).compact

/-- The request for an update. -/
def compile (u : Update) : Except StoreError UpdateItemRequest := do
  checkKey u.key
  if u.updates.isEmpty then throw (.invalid .noActions)
  let bundle ← u.bundle
  return {
    table := u.table
    key := u.key
    update := bundle.text? .update
    condition := bundle.text? .condition
    bindings := bundle.bindings
    returns := u.returns }

/-- The same update in a transaction. -/
def inTransaction (u : Update) : Except StoreError TransactUpdate := do
  let r ← u.compile
  return {
    table := r.table
    key := r.key
    update := r.update.getD ""
    condition := r.condition
    bindings := r.bindings
    onFailure := r.returns.onFailure }

end Update

end Call

end ItemStore
