import ItemStore.Call.BatchGet
import ItemStore.Call.BatchWrite
import ItemStore.Call.Query
import ItemStore.Call.Scan
import ItemStore.Call.Transaction
import ItemStore.Store.Chunks
import ItemStore.Store.Pages

/-!
# Calls on a store

Every call compiles its description first, so a description that makes no sense is refused before
anything is sent, and the refusal names no request.
-/

namespace ItemStore

namespace Store

variable {σ : Type}

/-! ## Single items -/

/-- Read one item. -/
def get (store : Store σ) (g : Call.Get) : Run σ GetItemResponse := do
  store.send .getItem (← .lift g.compile)

/-- Put one item. -/
def put (store : Store σ) (p : Call.Put) : Run σ WriteResponse := do
  store.send .putItem (← .lift p.compile)

/-- Update one item. -/
def update (store : Store σ) (u : Call.Update) : Run σ WriteResponse := do
  store.send .updateItem (← .lift u.compile)

/-- Delete one item. -/
def delete (store : Store σ) (d : Call.Delete) : Run σ WriteResponse := do
  store.send .deleteItem (← .lift d.compile)

/-! ## Pages -/

/-- Run a query, reading at most `budget` pages; without a result there were more. -/
def query (store : Store σ) (budget : Nat) (q : Call.Query) : Run σ (Option PageResult) := do
  store.runQuery q.paging budget (← .lift q.compile)

/-- Run a scan, reading at most `budget` pages of each segment; without a result there were more. -/
def scan (store : Store σ) (budget : Nat) (s : Call.Scan) : Run σ (Option PageResult) := do
  store.runScan s.paging (s.segments.getD store.config.scanSegments) budget (← .lift s.compile)

/-! ## Batches -/

/-- Read many items. -/
def batchGet (store : Store σ) (b : Call.BatchGet) : Run σ BatchGetResponse := do
  store.runBatch .reads (← .lift b.compile)

/-- Write many items. -/
def batchWrite (store : Store σ) (b : Call.BatchWrite) : Run σ BatchWriteResponse := do
  store.runBatch .writes (← .lift b.compile)

/-! ## Transactions -/

/-- Write items together. -/
def transactWrite (store : Store σ) (t : Call.TransactWrite) : Run σ TransactWriteResponse := do
  store.send .transactWriteItems (← .lift t.compile)

/-- Read items together. -/
def transactRead (store : Store σ) (t : Call.TransactRead) : Run σ TransactGetResponse := do
  store.send .transactGetItems (← .lift t.compile)

end Store

end ItemStore
