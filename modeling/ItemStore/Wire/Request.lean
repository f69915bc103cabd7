import ItemStore.Wire.Entry

/-!
# Requests

What is sent for each operation.  A setting that is not given is left out, and so are bindings and
start keys without entries.
-/

namespace ItemStore

/-! ## Single items -/

/-- A read of one item. -/
structure GetItemRequest where
  /-- The table of the item. -/
  table : String := ""
  /-- The key of the item. -/
  key : Item := .empty
  /-- Whether the read sees every earlier write. -/
  consistentRead : Option Bool := none
  /-- What to return of the item. -/
  projection : Option String := none
  /-- The names that placeholders stand for. -/
  names : Keyed String := .empty
  /-- How consumed capacity is reported. -/
  returnCapacity : Option ReturnCapacity := none

namespace GetItemRequest

instance : Inhabited GetItemRequest := ⟨{}⟩

/-- The fields of a request. -/
def record : Record GetItemRequest :=
  .iso (fun (table, key, consistentRead, projection, names, returnCapacity) =>
      { table, key, consistentRead, projection, names, returnCapacity })
    (fun r => (r.table, r.key, r.consistentRead, r.projection, r.names, r.returnCapacity))
    (.pair (.required "TableName" .text) <|
      .pair (.required "Key" .item) <|
        .pair (.optional "ConsistentRead" .bool) <|
          .pair (.optional "ProjectionExpression" .text) <|
            .pair namesRecord <|
              .optional "ReturnConsumedCapacity" ReturnCapacity.codec)

/-- A request as an object. -/
def codec : Codec GetItemRequest := record.codec

end GetItemRequest

/-- What a write is asked to return besides its outcome. -/
structure WriteReturns where
  /-- Which attributes to return. -/
  values : Option ReturnValues := none
  /-- What to return if the condition does not hold. -/
  onFailure : Option ReturnOnFailure := none
  /-- How consumed capacity is reported. -/
  capacity : Option ReturnCapacity := none
  /-- Whether the sizes of item collections are reported. -/
  metrics : Option ReturnMetrics := none

namespace WriteReturns

instance : Inhabited WriteReturns := ⟨{}⟩

/-- The fields for what a write returns. -/
def record : Record WriteReturns :=
  .iso (fun (values, onFailure, capacity, metrics) => { values, onFailure, capacity, metrics })
    (fun r => (r.values, r.onFailure, r.capacity, r.metrics))
    (.pair (.optional "ReturnValues" ReturnValues.codec) <|
      .pair (.optional "ReturnValuesOnConditionCheckFailure" ReturnOnFailure.codec) <|
        .pair (.optional "ReturnConsumedCapacity" ReturnCapacity.codec) <|
          .optional "ReturnItemCollectionMetrics" ReturnMetrics.codec)

end WriteReturns

/-- A put of one item. -/
structure PutItemRequest where
  /-- The table of the item. -/
  table : String := ""
  /-- The item. -/
  item : Item := .empty
  /-- The condition for the put. -/
  condition : Option String := none
  /-- What its placeholders stand for. -/
  bindings : Bindings := .empty
  /-- What to return. -/
  returns : WriteReturns := {}

namespace PutItemRequest

instance : Inhabited PutItemRequest := ⟨{}⟩

/-- The fields of a request. -/
def record : Record PutItemRequest :=
  .iso (fun (table, item, condition, bindings, returns) =>
      { table, item, condition, bindings, returns })
    (fun r => (r.table, r.item, r.condition, r.bindings, r.returns))
    (.pair (.required "TableName" .text) <|
      .pair (.required "Item" .item) <|
        .pair (.optional "ConditionExpression" .text) <|
          .pair Bindings.record WriteReturns.record)

/-- A request as an object. -/
def codec : Codec PutItemRequest := record.codec

end PutItemRequest

/-- An update of one item. -/
structure UpdateItemRequest where
  /-- The table of the item. -/
  table : String := ""
  /-- The key of the item. -/
  key : Item := .empty
  /-- The update. -/
  update : Option String := none
  /-- The condition for the update. -/
  condition : Option String := none
  /-- What the placeholders of both stand for. -/
  bindings : Bindings := .empty
  /-- What to return. -/
  returns : WriteReturns := {}

namespace UpdateItemRequest

instance : Inhabited UpdateItemRequest := ⟨{}⟩

/-- The fields of a request. -/
def record : Record UpdateItemRequest :=
  .iso (fun (table, key, update, condition, bindings, returns) =>
      { table, key, update, condition, bindings, returns })
    (fun r => (r.table, r.key, r.update, r.condition, r.bindings, r.returns))
    (.pair (.required "TableName" .text) <|
      .pair (.required "Key" .item) <|
        .pair (.optional "UpdateExpression" .text) <|
          .pair (.optional "ConditionExpression" .text) <|
            .pair Bindings.record WriteReturns.record)

/-- A request as an object. -/
def codec : Codec UpdateItemRequest := record.codec

end UpdateItemRequest

/-- A delete of one item. -/
structure DeleteItemRequest where
  /-- The table of the item. -/
  table : String := ""
  /-- The key of the item. -/
  key : Item := .empty
  /-- The condition for the delete. -/
  condition : Option String := none
  /-- What its placeholders stand for. -/
  bindings : Bindings := .empty
  /-- What to return. -/
  returns : WriteReturns := {}

namespace DeleteItemRequest

instance : Inhabited DeleteItemRequest := ⟨{}⟩

/-- The fields of a request. -/
def record : Record DeleteItemRequest :=
  .iso (fun (table, key, condition, bindings, returns) =>
      { table, key, condition, bindings, returns })
    (fun r => (r.table, r.key, r.condition, r.bindings, r.returns))
    (.pair (.required "TableName" .text) <|
      .pair (.required "Key" .item) <|
        .pair (.optional "ConditionExpression" .text) <|
          .pair Bindings.record WriteReturns.record)

/-- A request as an object. -/
def codec : Codec DeleteItemRequest := record.codec

end DeleteItemRequest

/-! ## Pages -/

/-- One page of a query. -/
structure QueryRequest where
  /-- The table. -/
  table : String := ""
  /-- The index to read instead of the table. -/
  index : Option String := none
  /-- The condition on the key. -/
  keyCondition : Option String := none
  /-- The condition on what was read. -/
  filter : Option String := none
  /-- What to return of each item. -/
  projection : Option String := none
  /-- What the placeholders stand for. -/
  bindings : Bindings := .empty
  /-- Whether the items come in ascending order. -/
  forward : Option Bool := none
  /-- How many items to look at. -/
  limit : Option Int32 := none
  /-- Where the page before ended. -/
  startKey : Item := .empty
  /-- Which attributes to return. -/
  select : Option Select := none
  /-- Whether the read sees every earlier write. -/
  consistentRead : Option Bool := none
  /-- How consumed capacity is reported. -/
  returnCapacity : Option ReturnCapacity := none

namespace QueryRequest

instance : Inhabited QueryRequest := ⟨{}⟩

/-- The fields of a request. -/
def record : Record QueryRequest :=
  .iso (fun (table, index, keyCondition, filter, projection, bindings, forward, limit, startKey,
        select, consistentRead, returnCapacity) =>
      { table, index, keyCondition, filter, projection, bindings, forward, limit, startKey, select,
        consistentRead, returnCapacity })
    (fun r => (r.table, r.index, r.keyCondition, r.filter, r.projection, r.bindings, r.forward,
      r.limit, r.startKey, r.select, r.consistentRead, r.returnCapacity))
    (.pair (.required "TableName" .text) <|
      .pair (.optional "IndexName" .text) <|
        .pair (.optional "KeyConditionExpression" .text) <|
          .pair (.optional "FilterExpression" .text) <|
            .pair (.optional "ProjectionExpression" .text) <|
              .pair Bindings.record <|
                .pair (.optional "ScanIndexForward" .bool) <|
                  .pair (.optional "Limit" .int32) <|
                    .pair (.sparseItem "ExclusiveStartKey") <|
                      .pair (.optional "Select" Select.codec) <|
                        .pair (.optional "ConsistentRead" .bool) <|
                          .optional "ReturnConsumedCapacity" ReturnCapacity.codec)

/-- A request as an object. -/
def codec : Codec QueryRequest := record.codec

end QueryRequest

/-- One page of a scan. -/
structure ScanRequest where
  /-- The table. -/
  table : String := ""
  /-- The index to read instead of the table. -/
  index : Option String := none
  /-- The condition on what was read. -/
  filter : Option String := none
  /-- What to return of each item. -/
  projection : Option String := none
  /-- What the placeholders stand for. -/
  bindings : Bindings := .empty
  /-- How many items to look at. -/
  limit : Option Int32 := none
  /-- Where the page before ended. -/
  startKey : Item := .empty
  /-- Which segment to read. -/
  segment : Option Int32 := none
  /-- How many segments there are. -/
  totalSegments : Option Int32 := none
  /-- Which attributes to return. -/
  select : Option Select := none
  /-- Whether the read sees every earlier write. -/
  consistentRead : Option Bool := none
  /-- How consumed capacity is reported. -/
  returnCapacity : Option ReturnCapacity := none

namespace ScanRequest

instance : Inhabited ScanRequest := ⟨{}⟩

/-- The fields of a request. -/
def record : Record ScanRequest :=
  .iso (fun (table, index, filter, projection, bindings, limit, startKey, segment, totalSegments,
        select, consistentRead, returnCapacity) =>
      { table, index, filter, projection, bindings, limit, startKey, segment, totalSegments, select,
        consistentRead, returnCapacity })
    (fun r => (r.table, r.index, r.filter, r.projection, r.bindings, r.limit, r.startKey, r.segment,
      r.totalSegments, r.select, r.consistentRead, r.returnCapacity))
    (.pair (.required "TableName" .text) <|
      .pair (.optional "IndexName" .text) <|
        .pair (.optional "FilterExpression" .text) <|
          .pair (.optional "ProjectionExpression" .text) <|
            .pair Bindings.record <|
              .pair (.optional "Limit" .int32) <|
                .pair (.sparseItem "ExclusiveStartKey") <|
                  .pair (.optional "Segment" .int32) <|
                    .pair (.optional "TotalSegments" .int32) <|
                      .pair (.optional "Select" Select.codec) <|
                        .pair (.optional "ConsistentRead" .bool) <|
                          .optional "ReturnConsumedCapacity" ReturnCapacity.codec)

/-- A request as an object. -/
def codec : Codec ScanRequest := record.codec

end ScanRequest

/-! ## Batches -/

/-- A read of many items. -/
structure BatchGetRequest where
  /-- The keys to read, by table. -/
  tables : Keyed TableKeys := .empty
  /-- How consumed capacity is reported. -/
  returnCapacity : Option ReturnCapacity := none

namespace BatchGetRequest

instance : Inhabited BatchGetRequest := ⟨{}⟩

/-- The fields of a request. -/
def record : Record BatchGetRequest :=
  .iso (fun (tables, returnCapacity) => { tables, returnCapacity })
    (fun r => (r.tables, r.returnCapacity))
    (.pair (.required "RequestItems" (.keyed TableKeys.codec)) <|
      .optional "ReturnConsumedCapacity" ReturnCapacity.codec)

/-- A request as an object. -/
def codec : Codec BatchGetRequest := record.codec

end BatchGetRequest

/-- A write of many items. -/
structure BatchWriteRequest where
  /-- The writes, by table. -/
  tables : Keyed (List WriteRequest) := .empty
  /-- How consumed capacity is reported. -/
  returnCapacity : Option ReturnCapacity := none
  /-- Whether the sizes of item collections are reported. -/
  returnMetrics : Option ReturnMetrics := none

namespace BatchWriteRequest

instance : Inhabited BatchWriteRequest := ⟨{}⟩

/-- The fields of a request. -/
def record : Record BatchWriteRequest :=
  .iso (fun (tables, returnCapacity, returnMetrics) => { tables, returnCapacity, returnMetrics })
    (fun r => (r.tables, r.returnCapacity, r.returnMetrics))
    (.pair (.required "RequestItems" (.keyed (.list WriteRequest.codec))) <|
      .pair (.optional "ReturnConsumedCapacity" ReturnCapacity.codec) <|
        .optional "ReturnItemCollectionMetrics" ReturnMetrics.codec)

/-- A request as an object. -/
def codec : Codec BatchWriteRequest := record.codec

end BatchWriteRequest

/-! ## Transactions -/

/-- A writing transaction. -/
structure TransactWriteRequest where
  /-- The actions. -/
  items : List TransactWriteItem := []
  /-- A token under which a repeated request counts once. -/
  token : Option String := none
  /-- How consumed capacity is reported. -/
  returnCapacity : Option ReturnCapacity := none
  /-- Whether the sizes of item collections are reported. -/
  returnMetrics : Option ReturnMetrics := none

namespace TransactWriteRequest

instance : Inhabited TransactWriteRequest := ⟨{}⟩

/-- The fields of a request. -/
def record : Record TransactWriteRequest :=
  .iso (fun (items, token, returnCapacity, returnMetrics) =>
      { items, token, returnCapacity, returnMetrics })
    (fun r => (r.items, r.token, r.returnCapacity, r.returnMetrics))
    (.pair (.required "TransactItems" (.list TransactWriteItem.codec)) <|
      .pair (.optional "ClientRequestToken" .text) <|
        .pair (.optional "ReturnConsumedCapacity" ReturnCapacity.codec) <|
          .optional "ReturnItemCollectionMetrics" ReturnMetrics.codec)

/-- A request as an object. -/
def codec : Codec TransactWriteRequest := record.codec

end TransactWriteRequest

/-- A reading transaction. -/
structure TransactGetRequest where
  /-- The reads. -/
  items : List TransactGetItem := []
  /-- How consumed capacity is reported. -/
  returnCapacity : Option ReturnCapacity := none

namespace TransactGetRequest

instance : Inhabited TransactGetRequest := ⟨{}⟩

/-- The fields of a request. -/
def record : Record TransactGetRequest :=
  .iso (fun (items, returnCapacity) => { items, returnCapacity })
    (fun r => (r.items, r.returnCapacity))
    (.pair (.required "TransactItems" (.list TransactGetItem.codec)) <|
      .optional "ReturnConsumedCapacity" ReturnCapacity.codec)

/-- A request as an object. -/
def codec : Codec TransactGetRequest := record.codec

end TransactGetRequest

end ItemStore
