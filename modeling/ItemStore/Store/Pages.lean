import ItemStore.Paging
import ItemStore.Store.Attempts

/-!
# Reading pages

A paged read sends one request after another, each beginning where the page before ended, until
the pages end, enough items have been collected, or the caller wants one page only.  Nothing makes
a provider's pages end, so the number of pages is bounded by a budget; a read that runs out of it
has no result.

`drainAfter` is the loop over pages.  A scan of several segments puts together what they yield in
the order of the segments.

A client asks for all segments at the same time and returns the first error in time.  Here they are
drained one after another, so that a run has one session and one log.  Segments share nothing but
the provider: a request of a segment follows from the pages of this segment alone, and where its
pages go in the result is settled by its number.  So the requests of a segment and what is made of
its pages are the same either way; what belongs to this order is how the attempts of different
segments follow one another in the log, that no segment is begun behind one that fails, and that of
several segments that fail the first one is the one whose error is returned.
-/

namespace ItemStore

/-- How a kind of paged read goes on, and what a page of it is. -/
structure PageKind (op : Operation) where
  /-- The request that goes on behind a key. -/
  resume : op.Request → Item → op.Request
  /-- The page in a response. -/
  page : op.Response → Page

/-- Pages of a query. -/
def PageKind.query : PageKind .query where
  resume (r : QueryRequest) key := show QueryRequest from { r with startKey := key }
  page response := response

/-- Pages of a scan. -/
def PageKind.scan : PageKind .scan where
  resume (r : ScanRequest) key := show ScanRequest from { r with startKey := key }
  page response := response

namespace Store

variable {σ : Type} {op : Operation}

/-! ## One read -/

/-- Read pages behind what has been collected, at most `budget` of them. -/
def drainAfter (store : Store σ) (kind : PageKind op) (limit : Option Nat) (recursive : Bool) :
    (budget : Nat) → (request : op.Request) → PageResult → Run σ (Option PageResult)
  | 0, _, _ => return none
  | budget + 1, request, collected => do
    let page := kind.page (← store.send op request)
    let collected := collected.absorb page
    match limit.filter (· ≤ collected.items.length) with
    | some limit =>
      let cut := collected.truncate limit
      return some (if recursive then cut else { cut with lastKey := page.next? })
    | none =>
      match page.next? with
      | none => return some collected
      | some key =>
        if recursive then
          store.drainAfter kind limit recursive budget (kind.resume request key) collected
        else return some { collected with lastKey := some key }

/-- Read pages, at most `budget` of them. -/
def drain (store : Store σ) (kind : PageKind op) (limit : Option Nat) (recursive : Bool)
    (budget : Nat) (request : op.Request) : Run σ (Option PageResult) :=
  store.drainAfter kind limit recursive budget request {}

/-- Run a query in pages. -/
def runQuery (store : Store σ) (options : PageOptions) (budget : Nat) (request : QueryRequest) :
    Run σ (Option PageResult) :=
  if options.limit = some 0 then return some {}
  else
    store.drain PageKind.query options.limit options.recursive budget
      (show QueryRequest from
        { request with limit := options.pageSize.or (options.limit.map Paging.clamp) })

/-! ## Segments -/

/-- Read segments, each at most `budget` pages long, and put what they yield behind what has been
collected. -/
def drainSegments (store : Store σ) (limit : Option Nat) (recursive : Bool) (budget : Nat)
    (collected : PageResult) : List ScanRequest → Run σ (Option PageResult)
  | [] => return some collected
  | request :: rest => do
    match ← store.drain PageKind.scan limit recursive budget request with
    | none => return none
    | some segment =>
      store.drainSegments limit recursive budget (collected.absorbSegment segment recursive) rest

/-- The requests for the first pages of segments. -/
def segmentRequests (request : ScanRequest) (segments : Nat) : List ScanRequest :=
  (List.range segments).map fun i =>
    { request with
      startKey := .empty
      segment := some (.ofNat i)
      totalSegments := some (.ofNat segments) }

/-- Run a scan in pages, in `requested` segments if the limit asks for so many. -/
def runScan (store : Store σ) (options : PageOptions) (requested : Nat) (budget : Nat)
    (request : ScanRequest) : Run σ (Option PageResult) :=
  if options.limit = some 0 then return some {}
  else do
    let segments := Paging.segmentCount requested options.limit
    let perSegment := options.limit.map fun limit => ceilDiv limit segments
    let wanted := options.pageSize.or (perSegment.map Paging.clamp)
    let request := { request with
      limit := wanted.map fun limit => match request.filter with
        | some filter => Paging.overFetch limit (Paging.complexity filter)
        | none => limit }
    if segments = 1 then
      let result ← store.drain PageKind.scan perSegment options.recursive budget request
      return result.map fun r =>
        if options.recursive then r else { r with segmentKeys := [r.lastKey] }
    else
      let requests := segmentRequests request (min segments (twoTo 31 - 1))
      let result ← store.drainSegments perSegment options.recursive budget {} requests
      return result.map fun r =>
        match options.limit.filter (· < r.items.length) with
        | some limit => r.truncate limit
        | none => r

end Store

end ItemStore
