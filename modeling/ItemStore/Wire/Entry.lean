import ItemStore.Expression.Basic
import ItemStore.Wire.Choice

/-!
# Parts of requests and responses

The bindings that go along with the expressions of a request, and the entries of batches and
transactions.
-/

namespace ItemStore

/-! ## Bindings -/

/-- The field for the names that placeholders stand for. -/
def namesRecord : Record (Keyed String) := .sparseKeyed "ExpressionAttributeNames" .text

/-- The fields for what placeholders stand for. -/
def Bindings.record : Record Bindings :=
  .iso (fun (names, values) => { names, values }) (fun b => (b.names, b.values))
    (.pair namesRecord <| .sparseKeyed "ExpressionAttributeValues" .value)

/-! ## Batches -/

/-- The keys that a batch reads from one table. -/
structure TableKeys where
  /-- The keys. -/
  keys : List Item := []
  /-- What to return of each item. -/
  projection : Option String := none
  /-- The names that placeholders stand for. -/
  names : Keyed String := .empty
  /-- Whether the read sees every earlier write. -/
  consistentRead : Option Bool := none

namespace TableKeys

instance : Inhabited TableKeys := ⟨{}⟩

/-- The fields of the keys of a table. -/
def record : Record TableKeys :=
  .iso (fun (keys, projection, names, consistentRead) =>
      { keys, projection, names, consistentRead })
    (fun r => (r.keys, r.projection, r.names, r.consistentRead))
    (.pair (.required "Keys" (.list .item)) <|
      .pair (.optional "ProjectionExpression" .text) <|
        .pair namesRecord <|
          .optional "ConsistentRead" .bool)

/-- The keys of a table as an object. -/
def codec : Codec TableKeys := record.codec

end TableKeys

/-- A write in a batch: a put or a delete. -/
structure WriteRequest where
  /-- The item to put. -/
  put : Option Item := none
  /-- The key of the item to delete. -/
  delete : Option Item := none

namespace WriteRequest

instance : Inhabited WriteRequest := ⟨{}⟩

/-- The write that puts an item. -/
def ofPut (item : Item) : WriteRequest := { put := some item }

/-- The write that deletes an item. -/
def ofDelete (key : Item) : WriteRequest := { delete := some key }

/-- The object around the item of a put. -/
def putCodec : Codec Item := (Record.required "Item" .item).codec

/-- The object around the key of a delete. -/
def deleteCodec : Codec Item := (Record.required "Key" .item).codec

/-- The fields of a write. -/
def record : Record WriteRequest :=
  .iso (fun (put, delete) => { put, delete }) (fun w => (w.put, w.delete))
    (.pair (.optional "PutRequest" putCodec) <| .optional "DeleteRequest" deleteCodec)

/-- A write as an object. -/
def codec : Codec WriteRequest := record.codec

end WriteRequest

/-! ## Transactions -/

/-- A condition that a transaction requires of an item it does not write. -/
structure TransactCheck where
  /-- The table of the item. -/
  table : String := ""
  /-- The key of the item. -/
  key : Item := .empty
  /-- The condition. -/
  condition : String := ""
  /-- What its placeholders stand for. -/
  bindings : Bindings := .empty
  /-- What to return if the condition does not hold. -/
  onFailure : Option ReturnOnFailure := none

namespace TransactCheck

instance : Inhabited TransactCheck := ⟨{}⟩

/-- The fields of a check. -/
def record : Record TransactCheck :=
  .iso (fun (table, key, condition, bindings, onFailure) =>
      { table, key, condition, bindings, onFailure })
    (fun r => (r.table, r.key, r.condition, r.bindings, r.onFailure))
    (.pair (.required "TableName" .text) <|
      .pair (.required "Key" .item) <|
        .pair (.required "ConditionExpression" .text) <|
          .pair Bindings.record <|
            .optional "ReturnValuesOnConditionCheckFailure" ReturnOnFailure.codec)

/-- A check as an object. -/
def codec : Codec TransactCheck := record.codec

end TransactCheck

/-- A put in a transaction. -/
structure TransactPut where
  /-- The table of the item. -/
  table : String := ""
  /-- The item. -/
  item : Item := .empty
  /-- The condition for the put. -/
  condition : Option String := none
  /-- What its placeholders stand for. -/
  bindings : Bindings := .empty
  /-- What to return if the condition does not hold. -/
  onFailure : Option ReturnOnFailure := none

namespace TransactPut

instance : Inhabited TransactPut := ⟨{}⟩

/-- The fields of a put. -/
def record : Record TransactPut :=
  .iso (fun (table, item, condition, bindings, onFailure) =>
      { table, item, condition, bindings, onFailure })
    (fun r => (r.table, r.item, r.condition, r.bindings, r.onFailure))
    (.pair (.required "TableName" .text) <|
      .pair (.required "Item" .item) <|
        .pair (.optional "ConditionExpression" .text) <|
          .pair Bindings.record <|
            .optional "ReturnValuesOnConditionCheckFailure" ReturnOnFailure.codec)

/-- A put as an object. -/
def codec : Codec TransactPut := record.codec

end TransactPut

/-- A delete in a transaction. -/
structure TransactDelete where
  /-- The table of the item. -/
  table : String := ""
  /-- The key of the item. -/
  key : Item := .empty
  /-- The condition for the delete. -/
  condition : Option String := none
  /-- What its placeholders stand for. -/
  bindings : Bindings := .empty
  /-- What to return if the condition does not hold. -/
  onFailure : Option ReturnOnFailure := none

namespace TransactDelete

instance : Inhabited TransactDelete := ⟨{}⟩

/-- The fields of a delete. -/
def record : Record TransactDelete :=
  .iso (fun (table, key, condition, bindings, onFailure) =>
      { table, key, condition, bindings, onFailure })
    (fun r => (r.table, r.key, r.condition, r.bindings, r.onFailure))
    (.pair (.required "TableName" .text) <|
      .pair (.required "Key" .item) <|
        .pair (.optional "ConditionExpression" .text) <|
          .pair Bindings.record <|
            .optional "ReturnValuesOnConditionCheckFailure" ReturnOnFailure.codec)

/-- A delete as an object. -/
def codec : Codec TransactDelete := record.codec

end TransactDelete

/-- An update in a transaction. -/
structure TransactUpdate where
  /-- The table of the item. -/
  table : String := ""
  /-- The key of the item. -/
  key : Item := .empty
  /-- The update. -/
  update : String := ""
  /-- The condition for the update. -/
  condition : Option String := none
  /-- What the placeholders of both stand for. -/
  bindings : Bindings := .empty
  /-- What to return if the condition does not hold. -/
  onFailure : Option ReturnOnFailure := none

namespace TransactUpdate

instance : Inhabited TransactUpdate := ⟨{}⟩

/-- The fields of an update. -/
def record : Record TransactUpdate :=
  .iso (fun (table, key, update, condition, bindings, onFailure) =>
      { table, key, update, condition, bindings, onFailure })
    (fun r => (r.table, r.key, r.update, r.condition, r.bindings, r.onFailure))
    (.pair (.required "TableName" .text) <|
      .pair (.required "Key" .item) <|
        .pair (.required "UpdateExpression" .text) <|
          .pair (.optional "ConditionExpression" .text) <|
            .pair Bindings.record <|
              .optional "ReturnValuesOnConditionCheckFailure" ReturnOnFailure.codec)

/-- An update as an object. -/
def codec : Codec TransactUpdate := record.codec

end TransactUpdate

/-- An action in a writing transaction; one of the fields is set. -/
structure TransactWriteItem where
  /-- A condition to check. -/
  check : Option TransactCheck := none
  /-- An item to put. -/
  put : Option TransactPut := none
  /-- An item to delete. -/
  delete : Option TransactDelete := none
  /-- An item to update. -/
  update : Option TransactUpdate := none

namespace TransactWriteItem

instance : Inhabited TransactWriteItem := ⟨{}⟩

/-- The fields of an action. -/
def record : Record TransactWriteItem :=
  .iso (fun (check, put, delete, update) => { check, put, delete, update })
    (fun r => (r.check, r.put, r.delete, r.update))
    (.pair (.optional "ConditionCheck" TransactCheck.codec) <|
      .pair (.optional "Put" TransactPut.codec) <|
        .pair (.optional "Delete" TransactDelete.codec) <|
          .optional "Update" TransactUpdate.codec)

/-- An action as an object. -/
def codec : Codec TransactWriteItem := record.codec

end TransactWriteItem

/-- A read in a transaction. -/
structure TransactGet where
  /-- The table of the item. -/
  table : String := ""
  /-- The key of the item. -/
  key : Item := .empty
  /-- What to return of the item. -/
  projection : Option String := none
  /-- The names that placeholders stand for. -/
  names : Keyed String := .empty

namespace TransactGet

instance : Inhabited TransactGet := ⟨{}⟩

/-- The fields of a read. -/
def record : Record TransactGet :=
  .iso (fun (table, key, projection, names) => { table, key, projection, names })
    (fun r => (r.table, r.key, r.projection, r.names))
    (.pair (.required "TableName" .text) <|
      .pair (.required "Key" .item) <|
        .pair (.optional "ProjectionExpression" .text) namesRecord)

/-- A read as an object. -/
def codec : Codec TransactGet := record.codec

end TransactGet

/-- An action in a reading transaction. -/
structure TransactGetItem where
  /-- The read. -/
  get : TransactGet := {}

namespace TransactGetItem

instance : Inhabited TransactGetItem := ⟨{}⟩

/-- The field of an action. -/
def record : Record TransactGetItem :=
  .iso (fun get => { get }) (fun r => r.get) (.required "Get" TransactGet.codec)

/-- An action as an object. -/
def codec : Codec TransactGetItem := record.codec

end TransactGetItem

/-- What a reading transaction returns for one of its actions. -/
structure ItemResponse where
  /-- The item, if there is one. -/
  item : Option Item := none

namespace ItemResponse

instance : Inhabited ItemResponse := ⟨{}⟩

/-- The field of an answer. -/
def record : Record ItemResponse :=
  .iso (fun item => { item }) (fun r => r.item) (.optional "Item" .item)

/-- An answer as an object. -/
def codec : Codec ItemResponse := record.codec

end ItemResponse

end ItemStore
