import ItemStore.Text.Blank
import ItemStore.Wire.Response

/-!
# Paged reads

A query or scan comes in pages.  The caller says how many items to collect, how large a page may be
and whether to go on after the first page; `PageResult` is what has been collected.  A scan may read
several segments side by side, and a scan with a filter asks for more items than it needs, because
the filter drops some: five times as many for every test in the filter.
-/

namespace ItemStore

/-! ## What the caller asks for -/

/-- How a read is paged. -/
structure PageOptions where
  /-- How many items to collect at most. -/
  limit : Option Nat := none
  /-- How many items a page looks at, if the caller sets it. -/
  pageSize : Option Int32 := none
  /-- Whether to go on after the first page. -/
  recursive : Bool := true

instance : Inhabited PageOptions := ⟨{}⟩

/-! ## What is collected -/

/-- What a paged read has collected. -/
structure PageResult where
  /-- The items, in the order in which they came. -/
  items : List Item := []
  /-- How many items match. -/
  count : Nat := 0
  /-- How many items were looked at. -/
  scannedCount : Nat := 0
  /-- Where to go on, if the read stopped early. -/
  lastKey : Option Item := none
  /-- Where to go on in each segment, if the read stopped early in it. -/
  segmentKeys : List (Option Item) := []
  /-- The capacity consumed, by table. -/
  capacity : List CapacityReading := []

namespace PageResult

instance : Inhabited PageResult := ⟨{}⟩

/-- Add a page behind what has been collected. -/
def absorb (r : PageResult) (p : Page) : PageResult :=
  { r with
    items := r.items ++ p.items
    count := r.count + p.count.toInt.toNat
    scannedCount := r.scannedCount + p.scannedCount.toInt.toNat
    capacity := ConsumedCapacity.mergeAll r.capacity p.capacity.toList }

/-- Keep only the first items; those are then what counts. -/
def truncate (r : PageResult) (limit : Nat) : PageResult :=
  { r with items := r.items.take limit, count := (r.items.take limit).length }

/-- Add what a segment has collected behind what the segments before it have. -/
def absorbSegment (r segment : PageResult) (recursive : Bool) : PageResult :=
  { r with
    items := r.items ++ segment.items
    count := r.count + segment.count
    scannedCount := r.scannedCount + segment.scannedCount
    segmentKeys := if recursive then r.segmentKeys else r.segmentKeys ++ [segment.lastKey]
    capacity := ConsumedCapacity.mergeAll r.capacity segment.capacity }

end PageResult

/-! ## How much to ask for -/

namespace Paging

/-- A number as a request carries it; one that is too large becomes the largest. -/
def clamp (n : Nat) : Int32 := .ofNat (min n (twoTo 31 - 1))

/-- How many segments to read, where `requested` are wanted: at least one, and with a limit no more
than one for every five items. -/
def segmentCount (requested : Nat) (limit : Option Nat) : Nat :=
  match limit with
  | none => max 1 requested
  | some limit => min (max 1 requested) (max 1 (ceilDiv limit 5))

/-- Whether a character stands between the words of a filter. -/
def isSeparator (c : Char) : Bool := isBlank c || c == '(' || c == ')'

/-- How many words of a text pass a test. -/
def countWords (p : String → Bool) (text : String) : Nat :=
  ((text.toList.splitOnP isSeparator).filter fun w => p (String.ofList w)).length

/-- How many tests a filter combines, by its text: one more than its connectives.  The connective in
a test for bounds is not counted. -/
def complexity (filter : String) : Nat :=
  let connectives := countWords (fun w => w == "AND" || w == "OR" || w == "NOT") filter
  let bounds := countWords (fun w => w == "BETWEEN") filter
  1 + (connectives - bounds)

/-- The most tests for which a filter is not taken to let nothing through. -/
def mostTests : Nat := 27

/-- How many items to look at in order to find `limit` that pass a filter of some complexity.  Where
no request can carry that many, it is as many as one can carry. -/
def overFetch (limit : Int32) (complexity : Nat) : Int32 :=
  if mostTests < complexity then .maxValue
  else
    let wanted : Int := limit.toInt * Nat.pow 5 complexity
    if -(twoTo 31 : Int) ≤ wanted && wanted < twoTo 31 then .ofInt wanted else .maxValue

end Paging

end ItemStore
