import ItemStore.Wire.Capacity
import ItemStore.Wire.Entry

/-!
# Responses

What a provider answers for each operation.  Collections that are missing read as empty.
-/

namespace ItemStore

/-! ## Single items -/

/-- The answer to a read of one item. -/
structure GetItemResponse where
  /-- The item, if there is one under the key. -/
  item : Option Item := none
  /-- The capacity consumed. -/
  capacity : Option CapacityReading := none

namespace GetItemResponse

instance : Inhabited GetItemResponse := ⟨{}⟩

/-- The fields of an answer. -/
def record : Record GetItemResponse :=
  .iso (fun (item, capacity) => { item, capacity }) (fun r => (r.item, r.capacity))
    (.pair (.optional "Item" .item) <| .optional "ConsumedCapacity" ConsumedCapacity.codec)

/-- An answer as an object. -/
def codec : Codec GetItemResponse := record.codec

end GetItemResponse

/-- The answer to a write of one item. -/
structure WriteResponse where
  /-- The attributes that the request asked for. -/
  attributes : Item := .empty
  /-- The capacity consumed. -/
  capacity : Option CapacityReading := none
  /-- The item collection that was written to. -/
  metrics : Option CollectionMetrics := none

namespace WriteResponse

instance : Inhabited WriteResponse := ⟨{}⟩

/-- The fields of an answer. -/
def record : Record WriteResponse :=
  .iso (fun (attributes, capacity, metrics) => { attributes, capacity, metrics })
    (fun r => (r.attributes, r.capacity, r.metrics))
    (.pair (.sparseItem "Attributes") <|
      .pair (.optional "ConsumedCapacity" ConsumedCapacity.codec) <|
        .optional "ItemCollectionMetrics" CollectionMetrics.codec)

/-- An answer as an object. -/
def codec : Codec WriteResponse := record.codec

end WriteResponse

/-! ## Pages -/

/-- One page of a query or scan. -/
structure Page where
  /-- The items of the page. -/
  items : List Item := []
  /-- How many items match. -/
  count : Int32 := 0
  /-- How many items were looked at. -/
  scannedCount : Int32 := 0
  /-- Where the page ended; empty on the last page. -/
  lastKey : Item := .empty
  /-- The capacity consumed. -/
  capacity : Option CapacityReading := none

namespace Page

instance : Inhabited Page := ⟨{}⟩

/-- The fields of a page. -/
def record : Record Page :=
  .iso (fun (items, count, scannedCount, lastKey, capacity) =>
      { items, count, scannedCount, lastKey, capacity })
    (fun p => (p.items, p.count, p.scannedCount, p.lastKey, p.capacity))
    (.pair (.sparseList "Items" .item) <|
      .pair (.filled "Count" .int32 0) <|
        .pair (.filled "ScannedCount" .int32 0) <|
          .pair (.sparseItem "LastEvaluatedKey") <|
            .optional "ConsumedCapacity" ConsumedCapacity.codec)

/-- A page as an object. -/
def codec : Codec Page := record.codec

/-- Where to go on after the page, if there is more. -/
def next? (p : Page) : Option Item := if p.lastKey.isEmpty then none else some p.lastKey

end Page

/-! ## Batches -/

/-- The answer to a read of many items. -/
structure BatchGetResponse where
  /-- The items, by table. -/
  responses : Keyed (List Item) := .empty
  /-- The keys that were not read, by table. -/
  unprocessed : Keyed TableKeys := .empty
  /-- The capacity consumed, by table. -/
  capacity : List CapacityReading := []

namespace BatchGetResponse

instance : Inhabited BatchGetResponse := ⟨{}⟩

/-- The fields of an answer. -/
def record : Record BatchGetResponse :=
  .iso (fun (responses, unprocessed, capacity) => { responses, unprocessed, capacity })
    (fun r => (r.responses, r.unprocessed, r.capacity))
    (.pair (.filled "Responses" (.keyed (.list .item)) .empty) <|
      .pair (.sparseKeyed "UnprocessedKeys" TableKeys.codec) <|
        .sparseList "ConsumedCapacity" ConsumedCapacity.codec)

/-- An answer as an object. -/
def codec : Codec BatchGetResponse := record.codec

end BatchGetResponse

/-- The answer to a write of many items. -/
structure BatchWriteResponse where
  /-- The writes that were not made, by table. -/
  unprocessed : Keyed (List WriteRequest) := .empty
  /-- The item collections that were written to, by table. -/
  metrics : Keyed (List CollectionMetrics) := .empty
  /-- The capacity consumed, by table. -/
  capacity : List CapacityReading := []

namespace BatchWriteResponse

instance : Inhabited BatchWriteResponse := ⟨{}⟩

/-- The fields of an answer. -/
def record : Record BatchWriteResponse :=
  .iso (fun (unprocessed, metrics, capacity) => { unprocessed, metrics, capacity })
    (fun r => (r.unprocessed, r.metrics, r.capacity))
    (.pair (.sparseKeyed "UnprocessedItems" (.list WriteRequest.codec)) <|
      .pair (.sparseKeyed "ItemCollectionMetrics" (.list CollectionMetrics.codec)) <|
        .sparseList "ConsumedCapacity" ConsumedCapacity.codec)

/-- An answer as an object. -/
def codec : Codec BatchWriteResponse := record.codec

end BatchWriteResponse

/-! ## Transactions -/

/-- The answer to a writing transaction. -/
structure TransactWriteResponse where
  /-- The capacity consumed, by table. -/
  capacity : List CapacityReading := []
  /-- The item collections that were written to, by table. -/
  metrics : Keyed (List CollectionMetrics) := .empty

namespace TransactWriteResponse

instance : Inhabited TransactWriteResponse := ⟨{}⟩

/-- The fields of an answer. -/
def record : Record TransactWriteResponse :=
  .iso (fun (capacity, metrics) => { capacity, metrics }) (fun r => (r.capacity, r.metrics))
    (.pair (.sparseList "ConsumedCapacity" ConsumedCapacity.codec) <|
      .sparseKeyed "ItemCollectionMetrics" (.list CollectionMetrics.codec))

/-- An answer as an object. -/
def codec : Codec TransactWriteResponse := record.codec

end TransactWriteResponse

/-- The answer to a reading transaction. -/
structure TransactGetResponse where
  /-- One answer for each read, in order. -/
  responses : List ItemResponse := []
  /-- The capacity consumed, by table. -/
  capacity : List CapacityReading := []

namespace TransactGetResponse

instance : Inhabited TransactGetResponse := ⟨{}⟩

/-- The fields of an answer. -/
def record : Record TransactGetResponse :=
  .iso (fun (responses, capacity) => { responses, capacity }) (fun r => (r.responses, r.capacity))
    (.pair (.filled "Responses" (.list ItemResponse.codec) []) <|
      .sparseList "ConsumedCapacity" ConsumedCapacity.codec)

/-- An answer as an object. -/
def codec : Codec TransactGetResponse := record.codec

end TransactGetResponse

end ItemStore
