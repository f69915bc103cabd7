import ItemStore.Json.Printer
import ItemStore.Operation
import ItemStore.Wire.Request
import ItemStore.Wire.Response

/-!
# Exchanges

What is sent for an operation, what comes back for it, and how the two are written in JSON.
-/

namespace ItemStore

namespace Operation

/-- What is sent for an operation. -/
abbrev Request : Operation → Type
  | .getItem => GetItemRequest
  | .putItem => PutItemRequest
  | .updateItem => UpdateItemRequest
  | .deleteItem => DeleteItemRequest
  | .query => QueryRequest
  | .scan => ScanRequest
  | .batchGetItem => BatchGetRequest
  | .batchWriteItem => BatchWriteRequest
  | .transactWriteItems => TransactWriteRequest
  | .transactGetItems => TransactGetRequest

/-- What comes back for an operation. -/
abbrev Response : Operation → Type
  | .getItem => GetItemResponse
  | .putItem => WriteResponse
  | .updateItem => WriteResponse
  | .deleteItem => WriteResponse
  | .query => Page
  | .scan => Page
  | .batchGetItem => BatchGetResponse
  | .batchWriteItem => BatchWriteResponse
  | .transactWriteItems => TransactWriteResponse
  | .transactGetItems => TransactGetResponse

/-- A request in which nothing is set. -/
def emptyRequest : (op : Operation) → op.Request
  | .getItem => ({} : GetItemRequest)
  | .putItem => ({} : PutItemRequest)
  | .updateItem => ({} : UpdateItemRequest)
  | .deleteItem => ({} : DeleteItemRequest)
  | .query => ({} : QueryRequest)
  | .scan => ({} : ScanRequest)
  | .batchGetItem => ({} : BatchGetRequest)
  | .batchWriteItem => ({} : BatchWriteRequest)
  | .transactWriteItems => ({} : TransactWriteRequest)
  | .transactGetItems => ({} : TransactGetRequest)

/-- A response that holds nothing. -/
def emptyResponse : (op : Operation) → op.Response
  | .getItem => ({} : GetItemResponse)
  | .putItem => ({} : WriteResponse)
  | .updateItem => ({} : WriteResponse)
  | .deleteItem => ({} : WriteResponse)
  | .query => ({} : Page)
  | .scan => ({} : Page)
  | .batchGetItem => ({} : BatchGetResponse)
  | .batchWriteItem => ({} : BatchWriteResponse)
  | .transactWriteItems => ({} : TransactWriteResponse)
  | .transactGetItems => ({} : TransactGetResponse)

instance (op : Operation) : Inhabited op.Request := ⟨op.emptyRequest⟩

instance (op : Operation) : Inhabited op.Response := ⟨op.emptyResponse⟩

/-- How requests are written. -/
def requestCodec : (op : Operation) → Codec op.Request
  | .getItem => GetItemRequest.codec
  | .putItem => PutItemRequest.codec
  | .updateItem => UpdateItemRequest.codec
  | .deleteItem => DeleteItemRequest.codec
  | .query => QueryRequest.codec
  | .scan => ScanRequest.codec
  | .batchGetItem => BatchGetRequest.codec
  | .batchWriteItem => BatchWriteRequest.codec
  | .transactWriteItems => TransactWriteRequest.codec
  | .transactGetItems => TransactGetRequest.codec

/-- How responses are written. -/
def responseCodec : (op : Operation) → Codec op.Response
  | .getItem => GetItemResponse.codec
  | .putItem => WriteResponse.codec
  | .updateItem => WriteResponse.codec
  | .deleteItem => WriteResponse.codec
  | .query => Page.codec
  | .scan => Page.codec
  | .batchGetItem => BatchGetResponse.codec
  | .batchWriteItem => BatchWriteResponse.codec
  | .transactWriteItems => TransactWriteResponse.codec
  | .transactGetItems => TransactGetResponse.codec

/-- A request as text. -/
def requestText (op : Operation) (request : op.Request) : String :=
  (op.requestCodec.encode request).compact

end Operation

end ItemStore
