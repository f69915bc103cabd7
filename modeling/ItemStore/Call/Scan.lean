import ItemStore.Call.Basic
import ItemStore.Paging
import ItemStore.Wire.Request

/-!
# Reading every item

A scan reads a table or an index from end to end, page by page and perhaps in several segments.  Its
filter and then its projection are compiled; the first one that makes no sense is what is refused.
-/

namespace ItemStore

namespace Call

/-- Read every item of a table or index. -/
structure Scan where
  /-- The table. -/
  table : String
  /-- The index to read instead of the table. -/
  index : Option String := none
  /-- The conditions on what was read. -/
  filters : List (Condition String) := []
  /-- The paths to return; all of an item if there are none. -/
  projection : List String := []
  /-- Which attributes to return. -/
  select : Option Select := none
  /-- Whether the read sees every earlier write. -/
  consistentRead : Option Bool := none
  /-- How consumed capacity is reported. -/
  returnCapacity : Option ReturnCapacity := none
  /-- Where an earlier read of one segment ended. -/
  startKey : Item := .empty
  /-- How the read is paged; the limit is for all segments together. -/
  paging : PageOptions := {}
  /-- How many segments to read, if not as many as the store is configured for. -/
  segments : Option Nat := none

namespace Scan

/-- The expressions of a scan. -/
def bundle (s : Scan) : Except StoreError Bundle := do
  let bundle ← Bundle.empty.withCondition .filter (Condition.chain s.filters)
  return (← bundle.withProjection s.projection).compact

/-- The request for the first page, without its size and segment. -/
def compile (s : Scan) : Except StoreError ScanRequest := do
  let bundle ← s.bundle
  return {
    table := s.table
    index := s.index
    filter := bundle.text? .filter
    projection := bundle.text? .projection
    bindings := bundle.bindings
    startKey := s.startKey
    select := s.select
    consistentRead := s.consistentRead
    returnCapacity := s.returnCapacity }

end Scan

end Call

end ItemStore
