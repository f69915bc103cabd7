import ItemStore.Call.Basic
import ItemStore.Wire.Request

/-!
# Writing many items

A batch of writes puts and deletes items of one table in any order.  Refused is the first write
whose item is empty or whose key is none.
-/

namespace ItemStore

namespace Call

/-- A write in a batch. -/
inductive Write where
  /-- Put an item. -/
  | put (item : Item)
  /-- Delete the item under a key. -/
  | delete (key : Item)

namespace Write

/-- Accept a write whose item or key is one. -/
def check : Write → Except StoreError Unit
  | .put item => checkItem item
  | .delete key => checkKey key

/-- The write as it is sent. -/
def request : Write → WriteRequest
  | .put item => .ofPut item
  | .delete key => .ofDelete key

end Write

/-- Put and delete many items, without conditions. -/
structure BatchWrite where
  /-- The table. -/
  table : String
  /-- The writes. -/
  writes : List Write := []
  /-- How consumed capacity is reported. -/
  returnCapacity : Option ReturnCapacity := none
  /-- Whether the sizes of item collections are reported. -/
  returnMetrics : Option ReturnMetrics := none

namespace BatchWrite

/-- The writes by table, as they are sent; without writes there is no table. -/
def tables (b : BatchWrite) : Keyed (List WriteRequest) :=
  if b.writes.isEmpty then .empty else .singleton b.table (b.writes.map Write.request)

/-- The request for all writes at once. -/
def compile (b : BatchWrite) : Except StoreError BatchWriteRequest := do
  b.writes.forM Write.check
  return {
    tables := b.tables
    returnCapacity := b.returnCapacity
    returnMetrics := b.returnMetrics }

end BatchWrite

end Call

end ItemStore
