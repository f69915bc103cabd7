/-!
# Operations

The requests that a store can send, and which of them only read.
-/

namespace ItemStore

/-- A kind of request. -/
inductive Operation where
  | getItem
  | putItem
  | updateItem
  | deleteItem
  | query
  | scan
  | batchGetItem
  | batchWriteItem
  | transactWriteItems
  | transactGetItems
deriving DecidableEq, Repr

namespace Operation

/-- Every operation. -/
def all : List Operation :=
  [.getItem, .putItem, .updateItem, .deleteItem, .query, .scan, .batchGetItem, .batchWriteItem,
    .transactWriteItems, .transactGetItems]

/-- The name under which a provider knows an operation. -/
def name : Operation → String
  | .getItem => "GetItem"
  | .putItem => "PutItem"
  | .updateItem => "UpdateItem"
  | .deleteItem => "DeleteItem"
  | .query => "Query"
  | .scan => "Scan"
  | .batchGetItem => "BatchGetItem"
  | .batchWriteItem => "BatchWriteItem"
  | .transactWriteItems => "TransactWriteItems"
  | .transactGetItems => "TransactGetItems"

/-- The operation of a name. -/
def ofName? (name : String) : Option Operation := all.find? fun op => op.name == name

/-- Whether an operation changes nothing at the provider. -/
def isRead : Operation → Bool
  | .getItem => true
  | .query => true
  | .scan => true
  | .batchGetItem => true
  | .transactGetItems => true
  | _ => false

end Operation

end ItemStore
