import ItemStore.Call.Basic
import ItemStore.Wire.Request

/-!
# Checking an item in a transaction

A check makes a transaction depend on an item that it does not write.  Refused are a key that is
none and then a condition that makes no sense.
-/

namespace ItemStore

namespace Call

/-- Require conditions of an item that a transaction does not write. -/
structure Check where
  /-- The table. -/
  table : String
  /-- The key of the item. -/
  key : Item
  /-- What has to hold. -/
  condition : Condition String
  /-- What has to hold besides. -/
  more : List (Condition String) := []
  /-- What to return if one does not hold. -/
  onFailure : Option ReturnOnFailure := none

namespace Check

/-- The check in a transaction. -/
def inTransaction (c : Check) : Except StoreError TransactCheck := do
  checkKey c.key
  let bundle ← guardBundle (c.condition :: c.more)
  match bundle.text? .condition with
  | none => throw (.invalid .noCheckedCondition)
  | some condition =>
    return {
      table := c.table
      key := c.key
      condition
      bindings := bundle.bindings
      onFailure := c.onFailure }

end Check

end Call

end ItemStore
