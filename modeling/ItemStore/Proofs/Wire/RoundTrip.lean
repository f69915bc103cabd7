import ItemStore.Proofs.Wire.Terse

/-!
# Wire structures survive the wire

Every structure of a request or a response is read back from what is written for it, although
settings that are not given and collections that are empty are left out.  The laws of `Codecs` are
applied along the description of each record.

* `X.roundTrips` and `X.tidy` are the laws of a structure `X`.  Where a structure reports doubles
  they have to be finite (`X.Finite`), since others are written as null.
* `WireKind` lists the structures, so that `wire_decode_encode` can speak of all of them at once.
* In what is sent no null stands anywhere, and names, values and start keys without entries are left
  out (`bindingFields`).
-/

namespace ItemStore

/-- The fields of requests that are left out when they have no entries. -/
def bindingFields : List String :=
  ["ExpressionAttributeNames", "ExpressionAttributeValues", "ExclusiveStartKey"]

@[simp] theorem mem_bindingFields_iff {name : String} :
    name ∈ bindingFields ↔ name = "ExpressionAttributeNames" ∨
      name = "ExpressionAttributeValues" ∨ name = "ExclusiveStartKey" := by
  simp [bindingFields]

section Choices

variable {full : List String} {name : String}

/-- Each choice is the first one with its label, so its label is read as the choice. -/
theorem ReturnValues.roundTrips (r : ReturnValues) : codec.RoundTrips r :=
  .labels (by cases r <;> rfl)

/-- A choice is written as a text, which may stand under any name. -/
@[simp] theorem ReturnValues.tidyField {r : ReturnValues} : codec.TidyField full name r :=
  Codec.tidyField_labels

theorem ReturnOnFailure.roundTrips (r : ReturnOnFailure) : codec.RoundTrips r :=
  .labels (by cases r <;> rfl)

@[simp] theorem ReturnOnFailure.tidyField {r : ReturnOnFailure} : codec.TidyField full name r :=
  Codec.tidyField_labels

theorem ReturnCapacity.roundTrips (r : ReturnCapacity) : codec.RoundTrips r :=
  .labels (by cases r <;> rfl)

@[simp] theorem ReturnCapacity.tidyField {r : ReturnCapacity} : codec.TidyField full name r :=
  Codec.tidyField_labels

theorem ReturnMetrics.roundTrips (r : ReturnMetrics) : codec.RoundTrips r :=
  .labels (by cases r <;> rfl)

@[simp] theorem ReturnMetrics.tidyField {r : ReturnMetrics} : codec.TidyField full name r :=
  Codec.tidyField_labels

theorem Select.roundTrips (r : Select) : codec.RoundTrips r :=
  .labels (by cases r <;> rfl)

@[simp] theorem Select.tidyField {r : Select} : codec.TidyField full name r :=
  Codec.tidyField_labels

end Choices

/-! ## Bindings -/

/-- Names come back, and where there are none they are left out and come back as none. -/
theorem namesRecord_roundTrips (names : Keyed String) : namesRecord.RoundTrips names :=
  .sparseKeyed fun _ _ => .text

/-- Names without entries are not written, so their field never holds an object without fields. -/
@[simp] theorem namesRecord_tidy {full : List String} {names : Keyed String} :
    namesRecord.Tidy full names := by
  simp [namesRecord]

/-- Names and values stand side by side in the object of the request that they belong to. -/
theorem Bindings.roundTrips (b : Bindings) : record.RoundTrips b :=
  .iso rfl <| .pair (namesRecord_roundTrips b.names) <| .sparseKeyed fun _ _ => .value

/-- Neither of the two fields of bindings is written without entries. -/
@[simp] theorem Bindings.tidy {b : Bindings} : record.Tidy bindingFields b := by
  simp [Bindings.record]

/-! ## Parts of batches and transactions -/

/-- The keys are always written, even if there are none; all else is left out if it is not given. -/
theorem TableKeys.roundTrips (r : TableKeys) : codec.RoundTrips r :=
  .record (by decide) <| .iso rfl <|
    .pair (.required <| .list fun _ _ => .item) <|
      .pair (.optional fun _ _ => .text) <|
        .pair (namesRecord_roundTrips r.names) <|
          .optional fun _ _ => .bool

@[simp] theorem TableKeys.tidyField {name : String} {r : TableKeys} :
    codec.TidyField bindingFields name r := by
  simp [codec, record]

/-- The item of a put stands in an object of its own, also if it has no attribute. -/
theorem WriteRequest.put_roundTrips (i : Item) : putCodec.RoundTrips i :=
  .record (by decide) (.required .item)

theorem WriteRequest.delete_roundTrips (key : Item) : deleteCodec.RoundTrips key :=
  .record (by decide) (.required .item)

/-- A write comes back with just the fields that it has: a put, a delete, both or none. -/
theorem WriteRequest.roundTrips (r : WriteRequest) : codec.RoundTrips r :=
  .record (by decide) <| .iso rfl <|
    .pair (.optional fun i _ => put_roundTrips i) <|
      .optional fun key _ => delete_roundTrips key

/-- The item of a put may be empty, since its field is none of the `bindingFields`. -/
@[simp] theorem WriteRequest.tidy {r : WriteRequest} : codec.Tidy bindingFields r := by
  simp [codec, record, putCodec, deleteCodec]

/-- A check always has a condition; of the actions it is the only one whose condition is required.
-/
theorem TransactCheck.roundTrips (r : TransactCheck) : codec.RoundTrips r :=
  .record (by decide) <| .iso rfl <|
    .pair (.required .text) <|
      .pair (.required .item) <|
        .pair (.required .text) <|
          .pair r.bindings.roundTrips <|
            .optional fun x _ => x.roundTrips

@[simp] theorem TransactCheck.tidyField {name : String} {r : TransactCheck} :
    codec.TidyField bindingFields name r := by
  simp [codec, record]

/-- A put without a condition is written without one. -/
theorem TransactPut.roundTrips (r : TransactPut) : codec.RoundTrips r :=
  .record (by decide) <| .iso rfl <|
    .pair (.required .text) <|
      .pair (.required .item) <|
        .pair (.optional fun _ _ => .text) <|
          .pair r.bindings.roundTrips <|
            .optional fun x _ => x.roundTrips

@[simp] theorem TransactPut.tidyField {name : String} {r : TransactPut} :
    codec.TidyField bindingFields name r := by
  simp [codec, record]

/-- A delete has the fields of a put, with a key in the place of the item. -/
theorem TransactDelete.roundTrips (r : TransactDelete) : codec.RoundTrips r :=
  .record (by decide) <| .iso rfl <|
    .pair (.required .text) <|
      .pair (.required .item) <|
        .pair (.optional fun _ _ => .text) <|
          .pair r.bindings.roundTrips <|
            .optional fun x _ => x.roundTrips

@[simp] theorem TransactDelete.tidyField {name : String} {r : TransactDelete} :
    codec.TidyField bindingFields name r := by
  simp [codec, record]

/-- The text of an update is required in a transaction, although an update of its own may miss it.
-/
theorem TransactUpdate.roundTrips (r : TransactUpdate) : codec.RoundTrips r :=
  .record (by decide) <| .iso rfl <|
    .pair (.required .text) <|
      .pair (.required .item) <|
        .pair (.required .text) <|
          .pair (.optional fun _ _ => .text) <|
            .pair r.bindings.roundTrips <|
              .optional fun x _ => x.roundTrips

@[simp] theorem TransactUpdate.tidyField {name : String} {r : TransactUpdate} :
    codec.TidyField bindingFields name r := by
  simp [codec, record]

/-- An action comes back under the name of its kind. -/
theorem TransactWriteItem.roundTrips (r : TransactWriteItem) : codec.RoundTrips r :=
  .record (by decide) <| .iso rfl <|
    .pair (.optional fun x _ => x.roundTrips) <|
      .pair (.optional fun x _ => x.roundTrips) <|
        .pair (.optional fun x _ => x.roundTrips) <|
          .optional fun x _ => x.roundTrips

/-- What holds of the four kinds of actions holds of whichever of them are there. -/
@[simp] theorem TransactWriteItem.tidy {r : TransactWriteItem} : codec.Tidy bindingFields r := by
  simp [codec, record]

/-- A read in a transaction has names for its projection but no values. -/
theorem TransactGet.roundTrips (r : TransactGet) : codec.RoundTrips r :=
  .record (by decide) <| .iso rfl <|
    .pair (.required .text) <|
      .pair (.required .item) <|
        .pair (.optional fun _ _ => .text) <|
          (namesRecord_roundTrips r.names)

@[simp] theorem TransactGet.tidyField {name : String} {r : TransactGet} :
    codec.TidyField bindingFields name r := by
  simp [codec, record]

/-- The read of an action is always there. -/
theorem TransactGetItem.roundTrips (r : TransactGetItem) : codec.RoundTrips r :=
  .record (by decide) <| .iso rfl <|
    .required r.get.roundTrips

@[simp] theorem TransactGetItem.tidy {r : TransactGetItem} : codec.Tidy bindingFields r := by
  simp [codec, record]

/-- An item that was not found is left out, and the missing field is read as none. -/
theorem ItemResponse.roundTrips (r : ItemResponse) : codec.RoundTrips r :=
  .record (by decide) <| .iso rfl <|
    .optional fun _ _ => .item

/-! ## Requests -/

/-- A read comes back with its key, its projection and its settings. -/
theorem GetItemRequest.roundTrips (r : GetItemRequest) : codec.RoundTrips r :=
  .record (by decide) <| .iso rfl <|
    .pair (.required .text) <|
      .pair (.required .item) <|
        .pair (.optional fun _ _ => .bool) <|
          .pair (.optional fun _ _ => .text) <|
            .pair (namesRecord_roundTrips r.names) <|
              .optional fun x _ => x.roundTrips

@[simp] theorem GetItemRequest.tidy {r : GetItemRequest} : codec.Tidy bindingFields r := by
  simp [codec, record]

/-- What a write is asked to return stands among the other fields of the write. -/
theorem WriteReturns.roundTrips (r : WriteReturns) : record.RoundTrips r :=
  .iso rfl <|
    .pair (.optional fun x _ => x.roundTrips) <|
      .pair (.optional fun x _ => x.roundTrips) <|
        .pair (.optional fun x _ => x.roundTrips) <|
          .optional fun x _ => x.roundTrips

@[simp] theorem WriteReturns.tidy {r : WriteReturns} : record.Tidy bindingFields r := by
  simp [record]

/-- A put comes back with its condition, its bindings and what it is asked to return. -/
theorem PutItemRequest.roundTrips (r : PutItemRequest) : codec.RoundTrips r :=
  .record (by decide) <| .iso rfl <|
    .pair (.required .text) <|
      .pair (.required .item) <|
        .pair (.optional fun _ _ => .text) <|
          .pair r.bindings.roundTrips <|
            r.returns.roundTrips

@[simp] theorem PutItemRequest.tidy {r : PutItemRequest} : codec.Tidy bindingFields r := by
  simp [codec, record]

/-- The texts of an update and of its condition share the bindings that are written behind them. -/
theorem UpdateItemRequest.roundTrips (r : UpdateItemRequest) : codec.RoundTrips r :=
  .record (by decide) <| .iso rfl <|
    .pair (.required .text) <|
      .pair (.required .item) <|
        .pair (.optional fun _ _ => .text) <|
          .pair (.optional fun _ _ => .text) <|
            .pair r.bindings.roundTrips <|
              r.returns.roundTrips

@[simp] theorem UpdateItemRequest.tidy {r : UpdateItemRequest} : codec.Tidy bindingFields r := by
  simp [codec, record]

/-- A delete is a put with a key instead of an item. -/
theorem DeleteItemRequest.roundTrips (r : DeleteItemRequest) : codec.RoundTrips r :=
  .record (by decide) <| .iso rfl <|
    .pair (.required .text) <|
      .pair (.required .item) <|
        .pair (.optional fun _ _ => .text) <|
          .pair r.bindings.roundTrips <|
            r.returns.roundTrips

@[simp] theorem DeleteItemRequest.tidy {r : DeleteItemRequest} : codec.Tidy bindingFields r := by
  simp [codec, record]

/-- Limits are words of 32 bits, and start keys are left out if they have no attribute. -/
theorem QueryRequest.roundTrips (r : QueryRequest) : codec.RoundTrips r :=
  .record (by decide) <| .iso rfl <|
    .pair (.required .text) <|
      .pair (.optional fun _ _ => .text) <|
        .pair (.optional fun _ _ => .text) <|
          .pair (.optional fun _ _ => .text) <|
            .pair (.optional fun _ _ => .text) <|
              .pair r.bindings.roundTrips <|
                .pair (.optional fun _ _ => .bool) <|
                  .pair (.optional fun _ _ => .int32) <|
                    .pair .sparseItem <|
                      .pair (.optional fun x _ => x.roundTrips) <|
                        .pair (.optional fun _ _ => .bool) <|
                          .optional fun x _ => x.roundTrips

/-- A query without a start key is written without one, not with an empty one. -/
@[simp] theorem QueryRequest.tidy {r : QueryRequest} : codec.Tidy bindingFields r := by
  simp [codec, record]

/-- The number of a segment, the number of segments and the limit are three fields of one kind and
do not disturb each other. -/
theorem ScanRequest.roundTrips (r : ScanRequest) : codec.RoundTrips r :=
  .record (by decide) <| .iso rfl <|
    .pair (.required .text) <|
      .pair (.optional fun _ _ => .text) <|
        .pair (.optional fun _ _ => .text) <|
          .pair (.optional fun _ _ => .text) <|
            .pair r.bindings.roundTrips <|
              .pair (.optional fun _ _ => .int32) <|
                .pair .sparseItem <|
                  .pair (.optional fun _ _ => .int32) <|
                    .pair (.optional fun _ _ => .int32) <|
                      .pair (.optional fun x _ => x.roundTrips) <|
                        .pair (.optional fun _ _ => .bool) <|
                          .optional fun x _ => x.roundTrips

/-- A scan without a start key is written without one, not with an empty one. -/
@[simp] theorem ScanRequest.tidy {r : ScanRequest} : codec.Tidy bindingFields r := by
  simp [codec, record]

/-- The tables of a batch are written even if there are none. -/
theorem BatchGetRequest.roundTrips (r : BatchGetRequest) : codec.RoundTrips r :=
  .record (by decide) <| .iso rfl <|
    .pair (.required <| .keyed fun e _ => e.2.roundTrips) <|
      .optional fun x _ => x.roundTrips

@[simp] theorem BatchGetRequest.tidy {r : BatchGetRequest} : codec.Tidy bindingFields r := by
  simp [codec, record]

/-- The writes of every table come back in their order. -/
theorem BatchWriteRequest.roundTrips (r : BatchWriteRequest) : codec.RoundTrips r :=
  .record (by decide) <| .iso rfl <|
    .pair (.required <| .keyed fun _ _ => .list fun w _ => w.roundTrips) <|
      .pair (.optional fun x _ => x.roundTrips) <|
        .optional fun x _ => x.roundTrips

@[simp] theorem BatchWriteRequest.tidy {r : BatchWriteRequest} : codec.Tidy bindingFields r := by
  simp [codec, record]

/-- The actions of a transaction come back in their order. -/
theorem TransactWriteRequest.roundTrips (r : TransactWriteRequest) : codec.RoundTrips r :=
  .record (by decide) <| .iso rfl <|
    .pair (.required <| .list fun x _ => x.roundTrips) <|
      .pair (.optional fun _ _ => .text) <|
        .pair (.optional fun x _ => x.roundTrips) <|
          .optional fun x _ => x.roundTrips

@[simp] theorem TransactWriteRequest.tidy {r : TransactWriteRequest} :
    codec.Tidy bindingFields r := by
  simp [codec, record]

/-- The reads of a transaction come back in their order. -/
theorem TransactGetRequest.roundTrips (r : TransactGetRequest) : codec.RoundTrips r :=
  .record (by decide) <| .iso rfl <|
    .pair (.required <| .list fun x _ => x.roundTrips) <|
      .optional fun x _ => x.roundTrips

@[simp] theorem TransactGetRequest.tidy {r : TransactGetRequest} : codec.Tidy bindingFields r := by
  simp [codec, record]

/-! ## Consumed capacity -/

/-- Every count of a reading is a finite number. -/
structure Capacity.Finite (c : Capacity Float) : Prop where
  read : ∀ units ∈ c.read, Binary64.isFinite units = true
  write : ∀ units ∈ c.write, Binary64.isFinite units = true
  total : ∀ units ∈ c.total, Binary64.isFinite units = true

namespace Capacity.Finite

variable {c : Capacity Float}

/-- Counts are written as numbers, and each is read as the double that it was. -/
theorem roundTrips (h : c.Finite) : Capacity.codec.RoundTrips c :=
  .record (by decide) <| .iso rfl <|
    .pair (.optional fun units hunits => .float (h.read units hunits)) <|
      .pair (.optional fun units hunits => .float (h.write units hunits)) <|
        .optional fun units hunits => .float (h.total units hunits)

/-- A count that is not finite would be written as null; nothing else of a reading could be. -/
theorem tidy (h : c.Finite) : Capacity.codec.Tidy [] c := by
  simpa [codec, record] using ⟨h.read, h.write, h.total⟩

end Capacity.Finite

/-- Every count of a reading is a finite number, for the table and for its indexes. -/
structure ConsumedCapacity.Finite (c : CapacityReading) : Prop where
  total : ∀ units ∈ c.total, Binary64.isFinite units = true
  read : ∀ units ∈ c.read, Binary64.isFinite units = true
  write : ∀ units ∈ c.write, Binary64.isFinite units = true
  base : ∀ reading ∈ c.base, reading.Finite
  localIndexes : ∀ e ∈ c.localIndexes.entries, e.2.Finite
  globalIndexes : ∀ e ∈ c.globalIndexes.entries, e.2.Finite

namespace ConsumedCapacity.Finite

variable {c : CapacityReading}

/-- Indexes without a reading are left out, and every reading of one comes back. -/
theorem roundTrips (h : c.Finite) : ConsumedCapacity.codec.RoundTrips c :=
  .record (by decide) <| .iso rfl <|
    .pair (.optional fun _ _ => .text) <|
      .pair (.optional fun units hunits => .float (h.total units hunits)) <|
        .pair (.optional fun units hunits => .float (h.read units hunits)) <|
          .pair (.optional fun units hunits => .float (h.write units hunits)) <|
            .pair (.optional fun reading hreading => (h.base reading hreading).roundTrips) <|
              .pair (.sparseKeyed fun e he => (h.localIndexes e he).roundTrips) <|
                .sparseKeyed fun e he => (h.globalIndexes e he).roundTrips

theorem tidy (h : c.Finite) : ConsumedCapacity.codec.Tidy [] c := by
  simp only [codec, record, Record.tidy_codec_iff, Record.tidy_iso_iff, Record.tidy_pair_iff,
    Record.tidy_optional_iff, Record.tidy_sparseKeyed_iff, Codec.tidyField_text,
    Codec.tidyField_float_iff, implies_true, true_and]
  exact ⟨h.total, h.read, h.write, fun reading hreading => (h.base reading hreading).tidy.field,
    fun e he => (h.localIndexes e he).tidy.field, fun e he => (h.globalIndexes e he).tidy.field⟩

end ConsumedCapacity.Finite

/-- Every estimate is a finite number. -/
structure CollectionMetrics.Finite (m : CollectionMetrics) : Prop where
  sizeEstimate : ∀ size ∈ m.sizeEstimate, Binary64.isFinite size = true

namespace CollectionMetrics.Finite

variable {m : CollectionMetrics}

/-- The estimates of an item collection come back in their order. -/
theorem roundTrips (h : m.Finite) : CollectionMetrics.codec.RoundTrips m :=
  .record (by decide) <| .iso rfl <|
    .pair .sparseItem <| .sparseList fun size hsize => .float (h.sizeEstimate size hsize)

theorem tidy (h : m.Finite) : CollectionMetrics.codec.Tidy [] m := by
  simpa [codec, record] using h.sizeEstimate

end CollectionMetrics.Finite

/-! ## Responses -/

@[simp] theorem TableKeys.tidyField_nil {name : String} {r : TableKeys} :
    codec.TidyField [] name r := by
  simp [codec, record]

@[simp] theorem WriteRequest.tidy_nil {r : WriteRequest} : codec.Tidy [] r := by
  simp [codec, record, putCodec, deleteCodec]

@[simp] theorem ItemResponse.tidy {r : ItemResponse} : codec.Tidy [] r := by
  simp [codec, record]

/-- The capacity that the response reports is finite. -/
structure GetItemResponse.Finite (r : GetItemResponse) : Prop where
  capacity : ∀ c ∈ r.capacity, c.Finite

namespace GetItemResponse.Finite

variable {r : GetItemResponse}

/-- An item that was not found and a reading that was not asked for are left out. -/
theorem roundTrips (h : r.Finite) : GetItemResponse.codec.RoundTrips r :=
  .record (by decide) <| .iso rfl <|
    .pair (.optional fun _ _ => .item) <| .optional fun c hc => (h.capacity c hc).roundTrips

theorem tidy (h : r.Finite) : GetItemResponse.codec.Tidy [] r := by
  simpa [codec, record] using fun c hc => (h.capacity c hc).tidy.field

end GetItemResponse.Finite

/-- What the response reports of capacity and of an item collection is finite. -/
structure WriteResponse.Finite (r : WriteResponse) : Prop where
  capacity : ∀ c ∈ r.capacity, c.Finite
  metrics : ∀ m ∈ r.metrics, m.Finite

namespace WriteResponse.Finite

variable {r : WriteResponse}

theorem roundTrips (h : r.Finite) : WriteResponse.codec.RoundTrips r :=
  .record (by decide) <| .iso rfl <|
    .pair .sparseItem <|
      .pair (.optional fun c hc => (h.capacity c hc).roundTrips) <|
        .optional fun m hm => (h.metrics m hm).roundTrips

theorem tidy (h : r.Finite) : WriteResponse.codec.Tidy [] r := by
  simpa [codec, record] using
    ⟨fun c hc => (h.capacity c hc).tidy.field, fun m hm => (h.metrics m hm).tidy.field⟩

end WriteResponse.Finite

/-- The capacity that the page reports is finite. -/
structure Page.Finite (p : Page) : Prop where
  capacity : ∀ c ∈ p.capacity, c.Finite

namespace Page.Finite

variable {p : Page}

/-- The two counts of a page are always written, although a page without them is read as one with
zeros. -/
theorem roundTrips (h : p.Finite) : Page.codec.RoundTrips p :=
  .record (by decide) <| .iso rfl <|
    .pair (.sparseList fun _ _ => .item) <|
      .pair (.filled .int32) <|
        .pair (.filled .int32) <|
          .pair .sparseItem <|
            .optional fun c hc => (h.capacity c hc).roundTrips

theorem tidy (h : p.Finite) : Page.codec.Tidy [] p := by
  simpa [codec, record] using fun c hc => (h.capacity c hc).tidy.field

end Page.Finite

/-- The capacity that the response reports is finite. -/
structure BatchGetResponse.Finite (r : BatchGetResponse) : Prop where
  capacity : ∀ c ∈ r.capacity, c.Finite

namespace BatchGetResponse.Finite

variable {r : BatchGetResponse}

/-- The items are always written, table by table, and the keys that were not read only if there are
any. -/
theorem roundTrips (h : r.Finite) : BatchGetResponse.codec.RoundTrips r :=
  .record (by decide) <| .iso rfl <|
    .pair (.filled <| .keyed fun _ _ => .list fun _ _ => .item) <|
      .pair (.sparseKeyed fun e _ => e.2.roundTrips) <|
        .sparseList fun c hc => (h.capacity c hc).roundTrips

theorem tidy (h : r.Finite) : BatchGetResponse.codec.Tidy [] r := by
  simpa [codec, record] using fun c hc => (h.capacity c hc).tidy

end BatchGetResponse.Finite

/-- What the response reports of capacity and of item collections is finite. -/
structure BatchWriteResponse.Finite (r : BatchWriteResponse) : Prop where
  metrics : ∀ e ∈ r.metrics.entries, ∀ m ∈ e.2, m.Finite
  capacity : ∀ c ∈ r.capacity, c.Finite

namespace BatchWriteResponse.Finite

variable {r : BatchWriteResponse}

theorem roundTrips (h : r.Finite) : BatchWriteResponse.codec.RoundTrips r :=
  .record (by decide) <| .iso rfl <|
    .pair (.sparseKeyed fun _ _ => .list fun w _ => w.roundTrips) <|
      .pair (.sparseKeyed fun e he => .list fun m hm => (h.metrics e he m hm).roundTrips) <|
        .sparseList fun c hc => (h.capacity c hc).roundTrips

theorem tidy (h : r.Finite) : BatchWriteResponse.codec.Tidy [] r := by
  simpa [codec, record] using
    ⟨fun name ms he m hm => (h.metrics (name, ms) he m hm).tidy, fun c hc => (h.capacity c hc).tidy⟩

end BatchWriteResponse.Finite

/-- What the response reports of capacity and of item collections is finite. -/
structure TransactWriteResponse.Finite (r : TransactWriteResponse) : Prop where
  capacity : ∀ c ∈ r.capacity, c.Finite
  metrics : ∀ e ∈ r.metrics.entries, ∀ m ∈ e.2, m.Finite

namespace TransactWriteResponse.Finite

variable {r : TransactWriteResponse}

theorem roundTrips (h : r.Finite) : TransactWriteResponse.codec.RoundTrips r :=
  .record (by decide) <| .iso rfl <|
    .pair (.sparseList fun c hc => (h.capacity c hc).roundTrips) <|
      .sparseKeyed fun e he => .list fun m hm => (h.metrics e he m hm).roundTrips

theorem tidy (h : r.Finite) : TransactWriteResponse.codec.Tidy [] r := by
  simpa [codec, record] using
    ⟨fun c hc => (h.capacity c hc).tidy, fun name ms he m hm => (h.metrics (name, ms) he m hm).tidy⟩

end TransactWriteResponse.Finite

/-- The capacity that the response reports is finite. -/
structure TransactGetResponse.Finite (r : TransactGetResponse) : Prop where
  capacity : ∀ c ∈ r.capacity, c.Finite

namespace TransactGetResponse.Finite

variable {r : TransactGetResponse}

/-- An answer for every read is always written, also for those that found nothing. -/
theorem roundTrips (h : r.Finite) : TransactGetResponse.codec.RoundTrips r :=
  .record (by decide) <| .iso rfl <|
    .pair (.filled <| .list fun x _ => x.roundTrips) <|
      .sparseList fun c hc => (h.capacity c hc).roundTrips

theorem tidy (h : r.Finite) : TransactGetResponse.codec.Tidy [] r := by
  simpa [codec, record] using fun c hc => (h.capacity c hc).tidy

end TransactGetResponse.Finite

/-! ## All of them -/

namespace Operation

/-- What a response reports of capacity and of item collections is finite. -/
def FiniteResponse : (op : Operation) → op.Response → Prop
  | .getItem => GetItemResponse.Finite
  | .putItem => WriteResponse.Finite
  | .updateItem => WriteResponse.Finite
  | .deleteItem => WriteResponse.Finite
  | .query => Page.Finite
  | .scan => Page.Finite
  | .batchGetItem => BatchGetResponse.Finite
  | .batchWriteItem => BatchWriteResponse.Finite
  | .transactWriteItems => TransactWriteResponse.Finite
  | .transactGetItems => TransactGetResponse.Finite

/-- A request has no doubles, so it comes back whatever its settings are. -/
theorem request_roundTrips (op : Operation) (request : op.Request) :
    op.requestCodec.RoundTrips request := by
  cases op
  case getItem => exact GetItemRequest.roundTrips request
  case putItem => exact PutItemRequest.roundTrips request
  case updateItem => exact UpdateItemRequest.roundTrips request
  case deleteItem => exact DeleteItemRequest.roundTrips request
  case query => exact QueryRequest.roundTrips request
  case scan => exact ScanRequest.roundTrips request
  case batchGetItem => exact BatchGetRequest.roundTrips request
  case batchWriteItem => exact BatchWriteRequest.roundTrips request
  case transactWriteItems => exact TransactWriteRequest.roundTrips request
  case transactGetItems => exact TransactGetRequest.roundTrips request

/-- In a request no null stands anywhere, and none of the `bindingFields` holds an object without
fields. -/
theorem request_tidy (op : Operation) (request : op.Request) :
    op.requestCodec.Tidy bindingFields request := by
  cases op
  case getItem => exact GetItemRequest.tidy
  case putItem => exact PutItemRequest.tidy
  case updateItem => exact UpdateItemRequest.tidy
  case deleteItem => exact DeleteItemRequest.tidy
  case query => exact QueryRequest.tidy
  case scan => exact ScanRequest.tidy
  case batchGetItem => exact BatchGetRequest.tidy
  case batchWriteItem => exact BatchWriteRequest.tidy
  case transactWriteItems => exact TransactWriteRequest.tidy
  case transactGetItems => exact TransactGetRequest.tidy

/-- A response comes back if what it reports is finite. -/
theorem response_roundTrips (op : Operation) (response : op.Response)
    (h : op.FiniteResponse response) : op.responseCodec.RoundTrips response := by
  cases op
  case getItem => exact GetItemResponse.Finite.roundTrips h
  case putItem | updateItem | deleteItem => exact WriteResponse.Finite.roundTrips h
  case query | scan => exact Page.Finite.roundTrips h
  case batchGetItem => exact BatchGetResponse.Finite.roundTrips h
  case batchWriteItem => exact BatchWriteResponse.Finite.roundTrips h
  case transactWriteItems => exact TransactWriteResponse.Finite.roundTrips h
  case transactGetItems => exact TransactGetResponse.Finite.roundTrips h

/-- No null stands in a response that reports finite numbers only. -/
theorem response_tidy (op : Operation) (response : op.Response)
    (h : op.FiniteResponse response) : op.responseCodec.Tidy [] response := by
  cases op
  case getItem => exact GetItemResponse.Finite.tidy h
  case putItem | updateItem | deleteItem => exact WriteResponse.Finite.tidy h
  case query | scan => exact Page.Finite.tidy h
  case batchGetItem => exact BatchGetResponse.Finite.tidy h
  case batchWriteItem => exact BatchWriteResponse.Finite.tidy h
  case transactWriteItems => exact TransactWriteResponse.Finite.tidy h
  case transactGetItems => exact TransactGetResponse.Finite.tidy h

end Operation

/-- A structure that goes over the wire: a request, a response, or a part of one. -/
inductive WireKind where
  | request (op : Operation)
  | response (op : Operation)
  | tableKeys
  | putEntry
  | deleteEntry
  | writeRequest
  | transactCheck
  | transactPut
  | transactDelete
  | transactUpdate
  | transactWriteItem
  | transactGet
  | transactGetItem
  | itemResponse
  | capacity
  | consumedCapacity
  | collectionMetrics

namespace WireKind

/-- The values of a structure. -/
abbrev Value : WireKind → Type
  | request op => op.Request
  | response op => op.Response
  | tableKeys => TableKeys
  | putEntry => Item
  | deleteEntry => Item
  | writeRequest => WriteRequest
  | transactCheck => TransactCheck
  | transactPut => TransactPut
  | transactDelete => TransactDelete
  | transactUpdate => TransactUpdate
  | transactWriteItem => TransactWriteItem
  | transactGet => TransactGet
  | transactGetItem => TransactGetItem
  | itemResponse => ItemResponse
  | capacity => Capacity Float
  | consumedCapacity => CapacityReading
  | collectionMetrics => CollectionMetrics

/-- How the values of a structure are written and read. -/
def codec : (k : WireKind) → Codec k.Value
  | request op => op.requestCodec
  | response op => op.responseCodec
  | tableKeys => TableKeys.codec
  | putEntry => WriteRequest.putCodec
  | deleteEntry => WriteRequest.deleteCodec
  | writeRequest => WriteRequest.codec
  | transactCheck => TransactCheck.codec
  | transactPut => TransactPut.codec
  | transactDelete => TransactDelete.codec
  | transactUpdate => TransactUpdate.codec
  | transactWriteItem => TransactWriteItem.codec
  | transactGet => TransactGet.codec
  | transactGetItem => TransactGetItem.codec
  | itemResponse => ItemResponse.codec
  | capacity => Capacity.codec
  | consumedCapacity => ConsumedCapacity.codec
  | collectionMetrics => CollectionMetrics.codec

/-- The doubles in a value are finite; where a structure has none there is nothing to ask. -/
def Finite : (k : WireKind) → k.Value → Prop
  | response op => op.FiniteResponse
  | capacity => Capacity.Finite
  | consumedCapacity => ConsumedCapacity.Finite
  | collectionMetrics => CollectionMetrics.Finite
  | _ => fun _ => True

/-- Every structure comes back, with nothing to ask of those that have no doubles. -/
theorem roundTrips (k : WireKind) (x : k.Value) (h : k.Finite x) : k.codec.RoundTrips x := by
  cases k
  case request op => exact op.request_roundTrips x
  case response op => exact op.response_roundTrips x h
  case tableKeys => exact TableKeys.roundTrips x
  case putEntry => exact WriteRequest.put_roundTrips x
  case deleteEntry => exact WriteRequest.delete_roundTrips x
  case writeRequest => exact WriteRequest.roundTrips x
  case transactCheck => exact TransactCheck.roundTrips x
  case transactPut => exact TransactPut.roundTrips x
  case transactDelete => exact TransactDelete.roundTrips x
  case transactUpdate => exact TransactUpdate.roundTrips x
  case transactWriteItem => exact TransactWriteItem.roundTrips x
  case transactGet => exact TransactGet.roundTrips x
  case transactGetItem => exact TransactGetItem.roundTrips x
  case itemResponse => exact ItemResponse.roundTrips x
  case capacity => exact Capacity.Finite.roundTrips h
  case consumedCapacity => exact ConsumedCapacity.Finite.roundTrips h
  case collectionMetrics => exact CollectionMetrics.Finite.roundTrips h

/-- No structure is written with a field for an absent setting or for a collection without
entries. -/
theorem terse (k : WireKind) (x : k.Value) : k.codec.Terse filledFields x := by
  cases k
  case request op => exact op.request_terse x
  case response op => exact op.response_terse x
  case putEntry | deleteEntry => exact .record Record.terse_required
  all_goals
    refine .record (.iso (fun _ => rfl) ?_)
    repeat' apply Record.Terse.pair
    all_goals simp

end WireKind

/-- **Structures survive the wire.**  Whatever its settings, a structure whose doubles are finite is
read back from what is written for it, although what is not given and collections without entries
are left out: without any one of the written fields, those in `filledFields` apart, the structure
would not be read back.  No null is ever written, and in a request neither names nor values nor a
start key without entries. -/
theorem wire_decode_encode :
    (∀ (k : WireKind) (x : k.Value), k.Finite x → k.codec.decode (k.codec.encode x) = some x) ∧
    (∀ (k : WireKind) (x : k.Value), k.codec.Terse filledFields x) ∧
    (∀ (op : Operation) (request : op.Request),
      (op.requestCodec.encode request).Tidy bindingFields) ∧
    (∀ (op : Operation) (response : op.Response), op.FiniteResponse response →
      (op.responseCodec.encode response).Tidy []) :=
  ⟨fun k x h => (k.roundTrips x h).decode_encode, WireKind.terse, Operation.request_tidy,
    Operation.response_tidy⟩

/-- A write that reports fractions of units, an index, an index without counts and two estimates. -/
def reportedWrite : WriteResponse where
  attributes := .singleton "tags" (.map [])
  capacity := some {
    table := some "orders", total := some 1.5, base := some {},
    globalIndexes := .ofList [("byDate", { write := some 0.5 }), ("byName", {})] }
  metrics := some { sizeEstimate := [0.0, 1.0] }

theorem reportedWrite_finite : reportedWrite.Finite := by
  have hhalf : Binary64.isFinite 0.5 = true := by decide +kernel
  have htotal : Binary64.isFinite 1.5 = true := by decide +kernel
  have hempty : Capacity.Finite {} := ⟨nofun, nofun, nofun⟩
  refine ⟨?_, ?_⟩
  · rintro _ ⟨⟩
    refine ⟨?_, nofun, nofun, ?_, nofun, ?_⟩
    · rintro _ ⟨⟩
      exact htotal
    · rintro _ ⟨⟩
      exact hempty
    · rintro e (_ | ⟨_, _ | ⟨_, ⟨⟩⟩⟩)
      · exact ⟨nofun, by rintro _ ⟨⟩; exact hhalf, nofun⟩
      · exact hempty
  · rintro _ ⟨⟩
    refine ⟨?_⟩
    rintro size (_ | ⟨_, _ | ⟨_, ⟨⟩⟩⟩) <;> decide +kernel

/-- The counts that are missing are left out, and so is the empty set of local indexes; the write is
read back all the same. -/
theorem wire_decode_encode_reported :
    reportedWrite.Finite ∧
    WriteResponse.codec.decode (WriteResponse.codec.encode reportedWrite) = some reportedWrite :=
  ⟨reportedWrite_finite,
    wire_decode_encode.1 (.response .updateItem) reportedWrite reportedWrite_finite⟩

end ItemStore
