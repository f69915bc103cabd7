import ItemStore.Store.Attempts

/-!
# Batches in chunks

A provider takes only so many entries in one request.  A batch is cut into chunks, each chunk is
sent, and what the provider leaves open is sent again until nothing is open or the submissions are
used up.  The responses of a chunk, and then those of all chunks, are merged; the items of a chunk
that reads are put into the order of the keys that asked for them.

What differs between batches that read and batches that write is in a `BatchKind`; `submit` is the
loop over the submissions of one chunk and `runBatch` the walk over the chunks.

A client sends all chunks at the same time and returns the first error in time.  Here they are sent
one after another, so that a run has one session and one log.  Chunks share nothing but the
provider: what is sent for a chunk follows from the chunk and from its own responses, and responses
are merged in the order of the chunks, whichever comes first.  So the submissions of a chunk and
what is made of its responses are the same either way; what belongs to this order is how the
attempts of different chunks follow one another in the log, that no chunk is begun behind one that
fails, and that of several chunks that fail the first one is the one whose error is returned.
-/

namespace ItemStore

/-! ## Cutting -/

/-- A list in consecutive pieces of `n` elements, the last of which may be shorter. -/
def chunksOf {α : Type} (n : Nat) (xs : List α) : List (List α) :=
  (List.range (ceilDiv xs.length n)).map fun i => (xs.drop (i * n)).take n

/-- How a kind of batch is cut, answered and put together. -/
structure BatchKind (op : Operation) where
  /-- The batch in chunks that a provider takes. -/
  chunks : op.Request → List op.Request
  /-- How many entries a request has. -/
  entries : op.Request → Nat
  /-- What a response leaves open of a request. -/
  remainder : op.Request → op.Response → op.Request
  /-- Put what a response holds behind what has come so far; what it leaves open is passed over. -/
  merge : op.Response → op.Response → op.Response
  /-- Put what came for a chunk into the order of the chunk. -/
  arrange : op.Request → op.Response → op.Response

/-- Put lists behind those under the same keys. -/
def appendLists {α : Type} (c more : Keyed (List α)) : Keyed (List α) :=
  more.entries.foldl (fun acc e => acc.alter e.1 fun old => old.getD [] ++ e.2) c

/-! ## Writing -/

/-- The most writes in one request. -/
def BatchKind.mostWrites : Nat := 25

/-- A batch of writes with other entries. -/
def BatchWriteRequest.withTables (r : BatchWriteRequest) (tables : Keyed (List WriteRequest)) :
    BatchWriteRequest := { r with tables }

/-- Batches of writes. -/
def BatchKind.writes : BatchKind .batchWriteItem where
  chunks (r : BatchWriteRequest) := r.tables.entries.flatMap fun e =>
    (chunksOf mostWrites e.2).map fun writes => r.withTables (.singleton e.1 writes)
  entries (r : BatchWriteRequest) := r.tables.values.flatten.length
  remainder (r : BatchWriteRequest) (response : BatchWriteResponse) :=
    r.withTables response.unprocessed
  merge (merged response : BatchWriteResponse) := show BatchWriteResponse from
    { merged with
      metrics := appendLists merged.metrics response.metrics
      capacity := ConsumedCapacity.mergeAll merged.capacity response.capacity }
  arrange _ response := response

/-! ## Reading -/

/-- The most keys in one request. -/
def BatchKind.mostKeys : Nat := 100

/-- Whether an item has all the attributes of a key, unchanged. -/
def Item.hasKey (item key : Item) : Bool :=
  key.entries.all fun e => match item.get? e.1 with
    | some value => value == e.2
    | none => false

/-- The position of the first key that an item has; an item that has none comes after all keys. -/
def keyPosition (keys : List Item) (item : Item) : Nat := keys.findIdx (Item.hasKey item)

/-- Items in the order of their keys.  Items of one key, and those of none, keep their order. -/
def inKeyOrder (keys items : List Item) : List Item :=
  items.mergeSort fun a b => keyPosition keys a ≤ keyPosition keys b

/-- A batch of reads with other entries. -/
def BatchGetRequest.withTables (r : BatchGetRequest) (tables : Keyed TableKeys) :
    BatchGetRequest := { r with tables }

/-- The items of every table in the order of the keys of a request. -/
def BatchGetResponse.inKeyOrder (response : BatchGetResponse) (r : BatchGetRequest) :
    BatchGetResponse :=
  { response with
    responses := response.responses.mapWithKey fun name items =>
      match r.tables.get? name with
      | some table => ItemStore.inKeyOrder table.keys items
      | none => items }

/-- Batches of reads. -/
def BatchKind.reads : BatchKind .batchGetItem where
  chunks (r : BatchGetRequest) := r.tables.entries.flatMap fun e =>
    (chunksOf mostKeys e.2.keys).map fun keys =>
      r.withTables (.singleton e.1 { e.2 with keys })
  entries (r : BatchGetRequest) := (r.tables.values.flatMap TableKeys.keys).length
  remainder (r : BatchGetRequest) (response : BatchGetResponse) :=
    r.withTables response.unprocessed
  merge (merged response : BatchGetResponse) := show BatchGetResponse from
    { merged with
      responses := appendLists merged.responses response.responses
      capacity := ConsumedCapacity.mergeAll merged.capacity response.capacity }
  arrange (r : BatchGetRequest) (response : BatchGetResponse) := response.inKeyOrder r

/-! ## Sending -/

namespace Store

variable {σ : Type} {op : Operation}

/-- Submit what is open of a chunk, for the `n`-th time, and then what is still open; at most
`pauses` more submissions may follow. -/
def submit (store : Store σ) (kind : BatchKind op) (chunk request : op.Request)
    (merged : op.Response) (n : Nat) (pauses : Nat) : Run σ op.Response := do
  let response ← store.send op request
  let rest := kind.remainder request response
  let merged := kind.merge merged response
  if kind.entries rest = 0 then return kind.arrange chunk merged
  else match pauses with
    | 0 => throw (.unprocessed op (kind.entries rest) n)
    | pauses + 1 => store.submit kind chunk rest merged (n + 1) pauses

/-- Send a chunk until nothing of it is open. -/
def runChunk (store : Store σ) (kind : BatchKind op) (chunk : op.Request) : Run σ op.Response :=
  store.submit kind chunk chunk op.emptyResponse 1 store.config.retry.pauses

/-- Send chunks, and put what comes for each behind what has come so far. -/
def runChunks (store : Store σ) (kind : BatchKind op) (merged : op.Response) :
    List op.Request → Run σ op.Response
  | [] => return merged
  | chunk :: rest => do
    let response ← store.runChunk kind chunk
    store.runChunks kind (kind.merge merged response) rest

/-- Send a batch in chunks. -/
def runBatch (store : Store σ) (kind : BatchKind op) (batch : op.Request) : Run σ op.Response :=
  store.runChunks kind op.emptyResponse (kind.chunks batch)

end Store

end ItemStore
