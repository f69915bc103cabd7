import ItemStore.Call.Basic
import ItemStore.Paging
import ItemStore.Wire.Request

/-!
# Reading the items of a partition

A query reads the items whose key fulfils a condition, page by page.  Its three expressions share
their placeholders; they are compiled in the order key condition, filter, projection, and the first
one that makes no sense is what is refused.
-/

namespace ItemStore

namespace Call

/-- Read the items whose key fulfils a condition. -/
structure Query where
  /-- The table. -/
  table : String
  /-- The condition on the key. -/
  keyCondition : Condition String
  /-- The index to read instead of the table. -/
  index : Option String := none
  /-- The conditions on what was read. -/
  filters : List (Condition String) := []
  /-- The paths to return; all of an item if there are none. -/
  projection : List String := []
  /-- Whether the items come in descending order. -/
  descending : Bool := false
  /-- Which attributes to return. -/
  select : Option Select := none
  /-- Whether the read sees every earlier write. -/
  consistentRead : Option Bool := none
  /-- How consumed capacity is reported. -/
  returnCapacity : Option ReturnCapacity := none
  /-- Where an earlier read ended. -/
  startKey : Item := .empty
  /-- How the read is paged. -/
  paging : PageOptions := {}

namespace Query

/-- The expressions of a query. -/
def bundle (q : Query) : Except StoreError Bundle := do
  let bundle ← Bundle.empty.withCondition .keyCondition (some q.keyCondition)
  let bundle ← bundle.withCondition .filter (Condition.chain q.filters)
  return (← bundle.withProjection q.projection).compact

/-- The request for the first page, without its size. -/
def compile (q : Query) : Except StoreError QueryRequest := do
  let bundle ← q.bundle
  match bundle.text? .keyCondition with
  | none => throw (.invalid .noKeyCondition)
  | some keyCondition =>
    return {
      table := q.table
      index := q.index
      keyCondition := some keyCondition
      filter := bundle.text? .filter
      projection := bundle.text? .projection
      bindings := bundle.bindings
      forward := if q.descending then some false else none
      startKey := q.startKey
      select := q.select
      consistentRead := q.consistentRead
      returnCapacity := q.returnCapacity }

end Query

end Call

end ItemStore
