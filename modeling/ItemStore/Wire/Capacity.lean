import ItemStore.Wire.Codec

/-!
# Consumed capacity

A provider reports how many capacity units a request has used, in all and by index.  Readings for
one table are added up: a field is missing from the sum only if it is missing from every reading.
Units may be of any type that has a zero and a sum; on the wire they are doubles.
-/

namespace ItemStore

/-- Add to a count that may be missing so far. -/
def addUnits {U : Type} [Add U] [OfNat U 0] (total more : Option U) : Option U :=
  match more with
  | none => total
  | some units => some (total.getD 0 + units)

/-! ## One table or index -/

/-- The capacity units that a table or an index has used. -/
structure Capacity (U : Type) where
  /-- Units for reads. -/
  read : Option U := none
  /-- Units for writes. -/
  write : Option U := none
  /-- Units in all. -/
  total : Option U := none
deriving DecidableEq, Repr

namespace Capacity

variable {U : Type}

instance : Inhabited (Capacity U) := ⟨{}⟩

/-- The sum of two readings. -/
def absorb [Add U] [OfNat U 0] (c more : Capacity U) : Capacity U where
  read := addUnits c.read more.read
  write := addUnits c.write more.write
  total := addUnits c.total more.total

/-- The fields of a reading. -/
def record : Record (Capacity Float) :=
  .iso (fun (read, write, total) => { read, write, total }) (fun c => (c.read, c.write, c.total))
    (.pair (.optional "ReadCapacityUnits" .float) <|
      .pair (.optional "WriteCapacityUnits" .float) <|
        .optional "CapacityUnits" .float)

/-- A reading as an object. -/
def codec : Codec (Capacity Float) := record.codec

end Capacity

/-! ## One request -/

/-- The capacity units that a request has used at one table. -/
structure ConsumedCapacity (U : Type) where
  /-- The table. -/
  table : Option String := none
  /-- Units in all. -/
  total : Option U := none
  /-- Units for reads. -/
  read : Option U := none
  /-- Units for writes. -/
  write : Option U := none
  /-- What the table itself has used. -/
  base : Option (Capacity U) := none
  /-- What each local index has used. -/
  localIndexes : Keyed (Capacity U) := .empty
  /-- What each global index has used. -/
  globalIndexes : Keyed (Capacity U) := .empty

namespace ConsumedCapacity

variable {U : Type}

instance : Inhabited (ConsumedCapacity U) := ⟨{}⟩

/-- The sums of the readings of indexes. -/
def absorbIndexes [Add U] [OfNat U 0] (c more : Keyed (Capacity U)) : Keyed (Capacity U) :=
  more.entries.foldl (fun acc e => acc.alter e.1 fun old => (old.getD {}).absorb e.2) c

/-- The sum of the readings of a table. -/
def absorbBase [Add U] [OfNat U 0] (c more : Option (Capacity U)) : Option (Capacity U) :=
  match more with
  | none => c
  | some reading => some ((c.getD {}).absorb reading)

/-- The sum of two readings; the table stays the one of the first. -/
def absorb [Add U] [OfNat U 0] (c more : ConsumedCapacity U) : ConsumedCapacity U where
  table := c.table
  total := addUnits c.total more.total
  read := addUnits c.read more.read
  write := addUnits c.write more.write
  base := absorbBase c.base more.base
  localIndexes := absorbIndexes c.localIndexes more.localIndexes
  globalIndexes := absorbIndexes c.globalIndexes more.globalIndexes

/-- Add a reading to a list of sums: to the sum for its table, or as a new one at the end. -/
def mergeInto [Add U] [OfNat U 0] (sums : List (ConsumedCapacity U))
    (reading : ConsumedCapacity U) : List (ConsumedCapacity U) :=
  match sums with
  | [] => [reading]
  | first :: rest =>
    if first.table = reading.table then first.absorb reading :: rest
    else first :: mergeInto rest reading

/-- Add readings to a list of sums. -/
def mergeAll [Add U] [OfNat U 0] (sums readings : List (ConsumedCapacity U)) :
    List (ConsumedCapacity U) :=
  readings.foldl mergeInto sums

/-- The fields of a reading. -/
def record : Record (ConsumedCapacity Float) :=
  .iso (fun (table, total, read, write, base, localIndexes, globalIndexes) =>
      { table, total, read, write, base, localIndexes, globalIndexes })
    (fun c => (c.table, c.total, c.read, c.write, c.base, c.localIndexes, c.globalIndexes))
    (.pair (.optional "TableName" .text) <|
      .pair (.optional "CapacityUnits" .float) <|
        .pair (.optional "ReadCapacityUnits" .float) <|
          .pair (.optional "WriteCapacityUnits" .float) <|
            .pair (.optional "Table" Capacity.codec) <|
              .pair (.sparseKeyed "LocalSecondaryIndexes" Capacity.codec) <|
                .sparseKeyed "GlobalSecondaryIndexes" Capacity.codec)

/-- A reading as an object. -/
def codec : Codec (ConsumedCapacity Float) := record.codec

end ConsumedCapacity

/-- A reading of consumed capacity as a provider reports it. -/
abbrev CapacityReading := ConsumedCapacity Float

/-! ## Item collections -/

/-- The size of the items that share a partition key. -/
structure CollectionMetrics where
  /-- The partition key. -/
  key : Item := .empty
  /-- The least and the greatest estimate, in gigabytes. -/
  sizeEstimate : List Float := []

namespace CollectionMetrics

instance : Inhabited CollectionMetrics := ⟨{}⟩

/-- The fields of an estimate. -/
def record : Record CollectionMetrics :=
  .iso (fun (key, sizeEstimate) => { key, sizeEstimate }) (fun m => (m.key, m.sizeEstimate))
    (.pair (.sparseItem "ItemCollectionKey") <| .sparseList "SizeEstimateRangeGB" .float)

/-- An estimate as an object. -/
def codec : Codec CollectionMetrics := record.codec

end CollectionMetrics

end ItemStore
