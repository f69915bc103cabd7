import Mathlib.Algebra.Order.BigOperators.Group.List
import Mathlib.Algebra.Order.Ring.Nat
import ItemStore.Proofs.Call.Resuming
import ItemStore.Proofs.Store.Lanes
import ItemStore.Proofs.Store.Slices

/-!
# Scans of several segments

A scan that is to go on reads its segments in lanes and puts together what they yield, in the order
of the segments.  A limit bounds the number of segments and is divided evenly among them before
anything is read, so that a lane stops at its share even if another segment has little to bring.

The lanes share nothing but the provider: what is asked for in a lane follows from its own pages,
and what is returned is put together in the order of the segments.  So the lanes and the result are
those of a client that asks for all segments at the same time; only that the log has one lane behind
another is about the order in which they run here.

* `run_scan_lanes` says which lanes a scan goes through, and `Gathers` what it returns for them.
* `scan_reads_segments_once`: every segment is read once, in a lane of its own.
* `limited_scan_returns_shares`: how many items a scan with a limit returns, by how what matches is
  distributed over the segments.
-/

namespace ItemStore

/-- What a lane is to bring of the limit of a scan in so many segments: all segments the same, with
the quotient rounded up. -/
def Call.Scan.share (c : Call.Scan) (segments : Nat) : Option Nat :=
  c.paging.limit.map fun limit => ceilDiv limit segments

/-! ## What is returned for lanes -/

/-- What a scan with a limit returns for lanes that have a share of it each. -/
structure Gathers (limit share : Option Nat) (lanes : List Lane) (result : PageResult) : Prop where
  /-- The items of the lanes in the order of the segments, no more than are wanted. -/
  items : result.items = upTo limit (lanes.flatMap (Lane.items share))
  /-- All items that were looked at count as such. -/
  scannedCount : result.scannedCount = (lanes.map Lane.scannedCount).sum
  /-- If the lanes have more than is wanted, the items count that were wanted. -/
  count_of_cut : ∀ n, limit = some n → n < (lanes.flatMap (Lane.items share)).length →
    result.count = n
  /-- If they do not, the counts of the lanes are added up. -/
  count_of_whole : (∀ n, limit = some n → (lanes.flatMap (Lane.items share)).length ≤ n) →
    result.count = (lanes.map (Lane.count share)).sum
  /-- There is nowhere to go on. -/
  keys : result.lastKey = none ∧ result.segmentKeys = []

section Gathers

variable {limit share : Option Nat}

theorem gathers_single {lane : Lane} (h : StopsAt limit true [] lane.pages lane.read) :
    Gathers limit limit [lane] (lane.result limit) where
  items := by
    rw [lane.items_result h, List.flatMap_singleton, Lane.items, upTo_upTo]
  scannedCount := by
    rw [Lane.scannedCount_result, List.map_singleton, List.sum_singleton]
  count_of_cut := by
    intro n hn hlt
    -- a single lane has no more than is wanted
    rw [List.flatMap_singleton, Lane.items, hn] at hlt
    exact absurd (List.length_take_le n _) (Nat.not_le.2 hlt)
  count_of_whole := by
    intro _
    rw [Lane.count_result, List.map_singleton, List.sum_singleton]
  keys := ⟨Lane.lastKey_result, Lane.segmentKeys_result⟩

theorem gathers_cut {lanes : List Lane}
    (h : ∀ lane ∈ lanes, StopsAt share true [] lane.pages lane.read) :
    Gathers limit share lanes
      ((PageResult.together (lanes.map (Lane.result share)) {}).cut limit) := by
  have hitems : (PageResult.together (lanes.map (Lane.result share)) {}).items =
      lanes.flatMap (Lane.items share) := by
    rw [PageResult.items_together, List.flatMap_map]
    exact List.flatMap_congr fun lane hlane => lane.items_result (h lane hlane)
  constructor
  · rw [PageResult.items_cut, hitems]
  · rw [PageResult.scannedCount_cut, PageResult.scannedCount_together, List.map_map]
    simp only [Function.comp_def, Lane.scannedCount_result]
    exact Nat.zero_add _
  · intro n hn hlt
    rw [← hitems] at hlt
    exact PageResult.count_cut_of_lt hn hlt
  · intro hall
    rw [← hitems] at hall
    rw [PageResult.cut_eq_self hall, PageResult.count_together, List.map_map]
    simp only [Function.comp_def, Lane.count_result]
    exact Nat.zero_add _
  · rw [PageResult.lastKey_cut, PageResult.segmentKeys_cut, PageResult.lastKey_together,
      PageResult.segmentKeys_together]
    exact ⟨rfl, rfl⟩

end Gathers

namespace Store

variable {σ : Type}

/-! ## The lanes of a scan -/

/-- A scan that is to go on goes through a lane for each of its requests. -/
theorem run_scan_lanes (store : Store σ) {c : Call.Scan} {request : ScanRequest}
    (hcompile : c.compile = .ok request) (hrecursive : c.paging.recursive = true)
    (hlimit : c.paging.limit ≠ some 0) {segments : Nat}
    (hsegments : Paging.segmentCount (c.segments.getD store.config.scanSegments) c.paging.limit =
      segments)
    {budget : Nat} {s : Session σ} {dss : List (List (Delivery .scan))}
    (hserves : store.ServesLanes (c.share segments)
      (requestsFor (request.sized c.paging segments) segments) s.state dss)
    (hbudget : ∀ ds ∈ dss, ds.length ≤ budget) :
    ∃ (lanes : List Lane) (result : PageResult) (s' : Session σ),
      s.run (store.scan budget c) = (.ok (some result), s') ∧
      lanes.map Lane.request = requestsFor (request.sized c.paging segments) segments ∧
      lanes.map Lane.deliveries = dss ∧
      (∀ lane ∈ lanes, store.LaneRead (c.share segments) lane) ∧
      s'.log = s.log ++
        (lanes.flatMap fun lane => lane.submissions.flatMap Submission.attempts) ∧
      Gathers c.paging.limit (c.share segments) lanes result := by
  have hscan : s.run (store.scan budget c) = s.run (store.runScan c.paging
      (c.segments.getD store.config.scanSegments) budget request) := by
    rw [scan, Session.run_lift_bind, hcompile]
  rw [hscan]
  by_cases hone : segments = 1
  · subst hone
    have hshare : c.share 1 = c.paging.limit := by
      simp [Call.Scan.share, ceilDiv_one]
    rw [hshare, requestsFor, if_pos rfl] at hserves
    rw [hshare, requestsFor, if_pos rfl, store.runScan_eq_single budget hlimit hsegments,
      hrecursive, Session.run_bind]
    -- there is one lane, for the whole table
    cases hserves with
    | @cons _ _ _ ds dss hfirst hrest =>
      obtain ⟨j, s', hread, hrun, hlog, -⟩ :=
        run_drain_lane hfirst (hbudget ds (List.mem_cons_self ..))
      cases hrest j hread.stops with
      | nil =>
        refine ⟨[⟨request.sized c.paging 1, ds, j⟩], _, s', by rw [hrun]; rfl, rfl, rfl, ?_, ?_,
          gathers_single hread.stops⟩
        · intro lane hlane
          rwa [List.mem_singleton.1 hlane]
        · rwa [List.flatMap_singleton]
  · have hrequests : requestsFor (request.sized c.paging segments) segments =
        segmentRequests (request.sized c.paging segments) (min segments (twoTo 31 - 1)) := by
      rw [requestsFor, if_neg hone]
    obtain ⟨lanes, s', hlanes, hdss, hreads, hrun, hlog⟩ :=
      run_drainSegments_serves hserves hbudget {}
    have hrun' : s.run (store.drainSegments
        (c.paging.limit.map fun limit => ceilDiv limit segments) true budget {}
        (requestsFor (request.sized c.paging segments) segments)) = _ := hrun
    rw [store.runScan_eq_many budget hlimit hsegments hone, hrecursive, Session.run_bind,
      ← hrequests, hrun']
    exact ⟨lanes, _, s', rfl, hlanes, hdss, hreads, hlog,
      gathers_cut fun lane hlane => (hreads lane hlane).stops⟩

/-! ## Every segment once -/

/-- With a limit there are no more segments than one for every five items. -/
theorem segmentCount_some (requested : Nat) {limit : Nat} (h : limit ≠ 0) :
    Paging.segmentCount requested (some limit) = min (max 1 requested) (ceilDiv limit 5) := by
  have hpos : 1 ≤ ceilDiv limit 5 := by
    unfold ceilDiv
    omega
  show min (max 1 requested) (max 1 (ceilDiv limit 5)) = _
  rw [Nat.max_eq_right hpos]

/-- The lane at a place of a scan in so many segments. -/
structure LaneAt (c : Call.Scan) (segments i : Nat) (lane : Lane) : Prop where
  /-- Every request of a lane is for its segment; a scan in one segment names none. -/
  place : ∀ x ∈ lane.submissions,
    ScanRequest.segment x.request = (if segments = 1 then none else some (.ofNat i)) ∧
    ScanRequest.totalSegments x.request = if segments = 1 then none else some (.ofNat segments)
  /-- Lanes begin at the beginning of their segments, and only a scan in one segment at its start
  key. -/
  start : ∃ x, lane.submissions.head? = some x ∧
    ScanRequest.startKey x.request = if segments = 1 then c.startKey else .empty
  /-- A lane reads on until it has its share. -/
  stops : StopsAt (c.share segments) true [] lane.pages lane.read

/-- There is one request for each segment. -/
theorem length_requestsFor (request : ScanRequest) {segments : Nat} (hpos : 1 ≤ segments)
    (hmost : segments < twoTo 31) : (requestsFor request segments).length = segments := by
  unfold requestsFor
  by_cases hone : segments = 1
  · rw [if_pos hone, hone]
    rfl
  · rw [if_neg hone, segmentRequests, List.length_map, List.length_range]
    omega

/-- The request at a place among those of a scan. -/
theorem getElem?_requestsFor {c : Call.Scan} {request : ScanRequest}
    (hcompile : c.compile = .ok request) {segments : Nat} (hmost : segments < twoTo 31) {i : Nat}
    {r : ScanRequest}
    (h : (requestsFor (request.sized c.paging segments) segments)[i]? = some r) :
    r.segment = (if segments = 1 then none else some (.ofNat i)) ∧
    r.totalSegments = (if segments = 1 then none else some (.ofNat segments)) ∧
    r.startKey = if segments = 1 then c.startKey else .empty := by
  obtain ⟨⟨hsegment, htotal⟩, hstart⟩ := c.place_of_compile hcompile
  unfold requestsFor at h
  by_cases hone : segments = 1
  · rw [if_pos hone] at h
    obtain rfl := List.mem_singleton.1 (List.mem_of_getElem? h)
    simp only [if_pos hone]
    exact ⟨hsegment, htotal, hstart⟩
  · have hall : min segments (twoTo 31 - 1) = segments := Nat.min_eq_left (by omega)
    rw [if_neg hone, hall, segmentRequests, List.getElem?_map] at h
    obtain ⟨k, hk, rfl⟩ := Option.map_eq_some_iff.1 h
    obtain ⟨hlt, rfl⟩ := List.getElem?_eq_some_iff.1 hk
    rw [List.getElem_range, if_neg hone, if_neg hone, if_neg hone]
    exact ⟨rfl, rfl, rfl⟩

theorem LaneRead.laneAt {store : Store σ} {c : Call.Scan} {segments i : Nat} {lane : Lane}
    (h : store.LaneRead (c.share segments) lane)
    (hplace : lane.request.segment = (if segments = 1 then none else some (.ofNat i)) ∧
      lane.request.totalSegments = (if segments = 1 then none else some (.ofNat segments)) ∧
      lane.request.startKey = if segments = 1 then c.startKey else .empty) :
    LaneAt c segments i lane where
  place := by
    intro x hx
    obtain ⟨key, hkey⟩ := request_of_mem_submissionsOf (List.mem_of_mem_take hx)
    rw [hkey]
    exact ⟨hplace.1, hplace.2.1⟩
  start := by
    obtain ⟨x, hx, hrequest⟩ := h.head?
    exact ⟨x, hx, hrequest ▸ hplace.2.2⟩
  stops := h.stops

/-- What matches for the requests of a scan is together what matches in the table. -/
theorem matching_requestsFor_perm (table : Table) (pick : ScanRequest → Item → Option Item)
    (request : ScanRequest) {segments : Nat} (hpos : 1 ≤ segments)
    (hone : request.segment = none ∧ request.totalSegments = none) :
    ((requestsFor request segments).flatMap (table.matching pick)).Perm
      ((table.behind none none (if segments = 1 then request.startKey else .empty)).filterMap
        (pick request.whole)) := by
  have hwhole : (requestsFor request segments).flatMap (table.matching pick) =
      ((requestsFor request segments).flatMap table.ahead).filterMap (pick request.whole) := by
    rw [List.filterMap_flatMap]
    refine List.flatMap_congr fun r hr => ?_
    rw [Table.matching, (of_mem_requestsFor _ _ hr).1]
  rw [hwhole]
  exact (ahead_requestsFor_perm request segments table hpos hone).filterMap _

/-- Lanes without a share bring all that matches in a table. -/
theorem items_lanes_perm {store : Store σ} {table : Table}
    {pick : ScanRequest → Item → Option Item} (hpages : store.provider.PagesThrough table pick)
    {lanes : List Lane} (hreads : ∀ lane ∈ lanes, store.LaneRead none lane)
    {request : ScanRequest} {segments : Nat} (hpos : 1 ≤ segments)
    (hrequests : lanes.map Lane.request = requestsFor request segments)
    (hone : request.segment = none ∧ request.totalSegments = none) :
    (lanes.flatMap (Lane.items none)).Perm
      ((table.behind none none (if segments = 1 then request.startKey else .empty)).filterMap
        (pick request.whole)) := by
  have hitems : lanes.flatMap (Lane.items none) =
      (requestsFor request segments).flatMap (table.matching pick) := by
    rw [← hrequests, List.flatMap_map]
    exact List.flatMap_congr fun lane hlane => (hreads lane hlane).items_eq hpages
  rw [hitems]
  exact matching_requestsFor_perm table pick request hpos hone

/-- **A scan of several segments reads every segment once and puts them together in order.**

For a scan that is to go on, without a limit or with one that is not zero, let `segments` be the
number of segments that are asked for, raised to one and, with a limit, lowered to a fifth of it,
rounded up.  Whatever pages a provider has for the segments, the scan goes through one lane for each
of them, and nothing else is sent.  Every request of a lane names its segment and their number, and
the first one has no start key; a scan in one segment names none and begins at its start key.  What
is returned is what `Gathers` says: the first items of each segment, no more than its share, in the
order of the segments and no more than are wanted.  The shares do not fall short of the limit, and
without one, what is returned of a table is all that matches, each item as often as it is there. -/
theorem scan_reads_segments_once (store : Store σ) (c : Call.Scan) (request : ScanRequest)
    (hcompile : c.compile = .ok request) (hrecursive : c.paging.recursive = true)
    (hlimit : c.paging.limit ≠ some 0) (segments : Nat)
    (hsegments : Paging.segmentCount (c.segments.getD store.config.scanSegments) c.paging.limit =
      segments) (hmost : segments < twoTo 31)
    (budget : Nat) (s : Session σ) (dss : List (List (Delivery .scan)))
    (hserves : store.ServesLanes (c.share segments)
      (requestsFor (request.sized c.paging segments) segments) s.state dss)
    (hbudget : ∀ ds ∈ dss, ds.length ≤ budget) :
    ∃ (lanes : List Lane) (result : PageResult) (s' : Session σ),
      s.run (store.scan budget c) = (.ok (some result), s') ∧
      lanes.map Lane.deliveries = dss ∧ lanes.length = segments ∧
      (∀ i lane, lanes[i]? = some lane → LaneAt c segments i lane) ∧
      s'.log = s.log ++
        (lanes.flatMap fun lane => lane.submissions.flatMap Submission.attempts) ∧
      Gathers c.paging.limit (c.share segments) lanes result ∧
      (∀ limit, c.paging.limit = some limit →
        segments = min (max 1 (c.segments.getD store.config.scanSegments)) (ceilDiv limit 5) ∧
        limit ≤ segments * ceilDiv limit segments) ∧
      (c.paging.limit = none →
        segments = max 1 (c.segments.getD store.config.scanSegments) ∧
        ∀ table pick, store.provider.PagesThrough table pick → result.items.Perm
          ((table.behind none none (if segments = 1 then c.startKey else .empty)).filterMap
            (pick request.whole))) := by
  obtain ⟨hplace, hstart⟩ := c.place_of_compile hcompile
  have hpos : 1 ≤ segments := hsegments ▸ segmentCount_pos _ _
  obtain ⟨lanes, result, s', hrun, hrequests, hdss, hreads, hlog, hgathers⟩ :=
    store.run_scan_lanes hcompile hrecursive hlimit hsegments hserves hbudget
  refine ⟨lanes, result, s', hrun, hdss, ?_, ?_, hlog, hgathers, ?_, ?_⟩
  · have hlength := congrArg List.length hrequests
    rw [List.length_map] at hlength
    rw [hlength]
    exact length_requestsFor _ hpos hmost
  · intro i lane hlane
    have hread := hreads lane (List.mem_of_getElem? hlane)
    refine hread.laneAt (getElem?_requestsFor hcompile hmost ?_)
    rw [← hrequests, List.getElem?_map, hlane]
    rfl
  · intro limit hsome
    rw [hsome] at hsegments hlimit
    refine ⟨?_, ?_⟩
    · rw [← hsegments, segmentCount_some _ fun hzero => hlimit (congrArg some hzero)]
    · rw [Nat.mul_comm]
      exact le_ceilDiv_mul limit hpos
  · intro hnone
    have hshare : c.share segments = none := by
      rw [Call.Scan.share, hnone]
      rfl
    refine ⟨?_, ?_⟩
    · rw [← hsegments, hnone]
      rfl
    · intro table pick hpages
      rw [hshare] at hgathers hreads
      have hperm := items_lanes_perm hpages hreads hpos hrequests hplace
      rw [hgathers.items, hnone, ← hstart]
      exact hperm

/-- Answering with a page is a delivery. -/
theorem scanPager_delivers (page : ScanRequest → Page) (request : Operation.scan.Request)
    (state : Unit) : (new (scanPager page)).Delivers request state ⟨[], page request⟩ :=
  ⟨by simp, Nat.le_max_left .., rfl⟩

/-- A scan for seven items in three segments, of which the limit leaves two, with a start key. -/
def sevenInThree : Call.Scan where
  table := "users"
  startKey := rowKey 5
  paging := { limit := some 7 }
  segments := some 3

/-- A request for a segment of two, behind a key. -/
def ofTwo (limit : Int32) (segment : Nat) (key : Item) : ScanRequest where
  table := "users"
  limit := some limit
  startKey := key
  segment := some (.ofNat segment)
  totalSegments := some 2

/-- The pages of two segments of nine rows: the first segment has a row more than a page. -/
def twoSegments : List (List (Delivery .scan)) :=
  [[⟨[], rowPage nineRows (ofTwo 4 0 .empty)⟩, ⟨[], rowPage nineRows (ofTwo 4 0 (rowKey 4))⟩],
    [⟨[], rowPage nineRows (ofTwo 4 1 .empty)⟩]]

theorem servesLanes_twoSegments :
    (new (scanPager (rowPage nineRows))).ServesLanes (sevenInThree.share 2)
      (requestsFor ((({ table := "users", startKey := rowKey 5 } : ScanRequest)).sized
        sevenInThree.paging 2) 2) () twoSegments := by
  refine servesLanes_of_forall₂ (.cons ?_ (.cons ?_ .nil)) ()
  · intro state
    exact .more (scanPager_delivers ..) rfl (.last (scanPager_delivers ..) (.inl rfl))
  · intro state
    exact .last (scanPager_delivers ..) (.inl rfl)

/-- Two lanes have four rows each, in the order of their segments; the last one is cut. -/
theorem scan_reads_segments_once_seven : ∃ result s',
    (⟨(), {}, []⟩ : Session Unit).run
        ((new (scanPager (rowPage nineRows))).scan 2 sevenInThree) = (.ok (some result), s') ∧
      result.items = [0, 2, 4, 6, 1, 3, 5].map (fun i => nineRows.getD i .empty) ∧
      result.count = 7 := by
  have hcompile : sevenInThree.compile =
      .ok { table := "users", startKey := rowKey 5 } := rfl
  obtain ⟨lanes, result, s', hrun, hdss, -, -, -, hgathers, -, -⟩ :=
    scan_reads_segments_once (new (scanPager (rowPage nineRows))) sevenInThree _ hcompile rfl
      (by decide) 2 rfl (by decide) 2 ⟨(), {}, []⟩ twoSegments servesLanes_twoSegments (by decide)
  have hlanes : lanes.flatMap (Lane.items (sevenInThree.share 2)) =
      twoSegments.flatMap fun ds =>
        upTo (sevenInThree.share 2) ((pagesOf .scan ds).flatMap Page.items) := by
    rw [← hdss, List.flatMap_map]
    rfl
  refine ⟨result, s', hrun, ?_, ?_⟩
  · rw [hgathers.items, hlanes]
    rfl
  · refine hgathers.count_of_cut 7 rfl ?_
    rw [hlanes]
    decide +kernel

/-! ## Limits and shares -/

/-- How many items are left of what lanes bring, by what matches for their requests. -/
theorem length_upTo_lanes {store : Store σ} {table : Table}
    {pick : ScanRequest → Item → Option Item} (hpages : store.provider.PagesThrough table pick)
    {share : Nat} {lanes : List Lane} (hreads : ∀ lane ∈ lanes, store.LaneRead (some share) lane)
    (limit : Nat) :
    (upTo (some limit) (lanes.flatMap (Lane.items (some share)))).length =
      min limit (((lanes.map Lane.request).map fun r =>
        min share (table.matching pick r).length).sum) := by
  have hlane : ∀ lane ∈ lanes, (lane.items (some share)).length =
      min share (table.matching pick lane.request).length := by
    intro lane hlane
    rw [(hreads lane hlane).items_eq hpages]
    exact List.length_take
  show ((lanes.flatMap (Lane.items (some share))).take limit).length = _
  rw [List.length_take, List.length_flatMap, List.map_map, List.map_congr_left hlane]
  rfl

/-- **A scan with a limit returns what the shares of its segments come to.**

Take a scan that is to go on, with a limit of at least one, and a provider that pages through a
table and has pages for each segment to its end, or as far as they are needed.  The number of items
that the scan returns is the limit or, if that is less, the sum over the segments of what matches in
each of them, but no more of it than the share of a segment.  This is never more than the limit and
never more than all that matches, and it is the lesser of the two if there is one segment only or no
segment has more than its share. -/
theorem limited_scan_returns_shares (store : Store σ) (table : Table)
    (pick : ScanRequest → Item → Option Item) (hpages : store.provider.PagesThrough table pick)
    (c : Call.Scan) (request : ScanRequest) (hcompile : c.compile = .ok request)
    (hrecursive : c.paging.recursive = true) (limit : Nat) (hlimit : c.paging.limit = some limit)
    (hpos : 1 ≤ limit) (segments : Nat)
    (hsegments : Paging.segmentCount (c.segments.getD store.config.scanSegments) c.paging.limit =
      segments)
    (budget : Nat) (s : Session σ) (dss : List (List (Delivery .scan)))
    (hserves : store.ServesLanes (c.share segments)
      (requestsFor (request.sized c.paging segments) segments) s.state dss)
    (hbudget : ∀ ds ∈ dss, ds.length ≤ budget) :
    ∃ (result : PageResult) (s' : Session σ),
      s.run (store.scan budget c) = (.ok (some result), s') ∧
      result.items.length = min limit
        (((requestsFor (request.sized c.paging segments) segments).map fun r =>
          min (ceilDiv limit segments) (table.matching pick r).length).sum) ∧
      result.items.length ≤ min limit
        ((table.behind none none (if segments = 1 then c.startKey else .empty)).filterMap
          (pick request.whole)).length ∧
      (segments = 1 ∨ (∀ r ∈ requestsFor (request.sized c.paging segments) segments,
          (table.matching pick r).length ≤ ceilDiv limit segments) →
        result.items.length = min limit
          ((table.behind none none (if segments = 1 then c.startKey else .empty)).filterMap
            (pick request.whole)).length) := by
  obtain ⟨hplace, hstart⟩ := c.place_of_compile hcompile
  have hsome : c.paging.limit ≠ some 0 := by
    rw [hlimit]
    intro hzero
    exact absurd (Option.some.inj hzero) (by omega)
  obtain ⟨lanes, result, s', hrun, hrequests, -, hreads, -, hgathers⟩ :=
    store.run_scan_lanes hcompile hrecursive hsome hsegments hserves hbudget
  have hshare : c.share segments = some (ceilDiv limit segments) := by
    rw [Call.Scan.share, hlimit]
    rfl
  rw [hshare] at hreads
  have hlength := length_upTo_lanes hpages hreads limit
  rw [← hshare, ← hlimit, ← hgathers.items, hrequests] at hlength
  -- what matches in the table, segment by segment
  have hall := (matching_requestsFor_perm table pick (request.sized c.paging segments)
    (hsegments ▸ segmentCount_pos _ _) hplace).length_eq
  rw [List.length_flatMap] at hall
  have hkey : (request.sized c.paging segments).startKey = c.startKey := hstart
  have hwhole : (request.sized c.paging segments).whole = request.whole := rfl
  rw [hkey, hwhole] at hall
  rw [← hall]
  refine ⟨result, s', hrun, hlength, ?_, ?_⟩
  · rw [hlength]
    exact min_le_min_left _ (List.sum_le_sum fun r _ => Nat.min_le_right ..)
  · rintro (hone | hfew)
    · subst hone
      rw [hlength, requestsFor, if_pos rfl, ceilDiv_one]
      simp
    · rw [hlength]
      refine congrArg (fun xs => min limit xs.sum) (List.map_congr_left fun r hr => ?_)
      exact Nat.min_eq_right (hfew r hr)

/-- Of five and four rows each segment brings its share of four, which is more than is wanted. -/
theorem limited_scan_returns_shares_seven : ∃ result s',
    (⟨(), {}, []⟩ : Session Unit).run
        ((new (scanPager (rowPage nineRows))).scan 2 sevenInThree) = (.ok (some result), s') ∧
      result.items.length = 7 := by
  have hcompile : sevenInThree.compile =
      .ok { table := "users", startKey := rowKey 5 } := rfl
  obtain ⟨result, s', hrun, hlength, -, -⟩ :=
    limited_scan_returns_shares (new (scanPager (rowPage nineRows))) (rowTable nineRows)
      (fun _ => some) (rowPager_pagesThrough nineRows) sevenInThree _ hcompile rfl 7 rfl (by decide)
      2 rfl 2 ⟨(), {}, []⟩ twoSegments servesLanes_twoSegments (by decide)
  refine ⟨result, s', hrun, ?_⟩
  rw [hlength]
  decide +kernel

/-- A scan for six items in two segments. -/
def sixInTwo : Call.Scan where
  table := "users"
  paging := { limit := some 6 }
  segments := some 2

/-- Six rows. -/
def sixRows : List Item := nineRows.take 6

/-- The pages of two segments of which the first one has all rows. -/
def oneSidedSegments : List (List (Delivery .scan)) :=
  [[⟨[], skewPage sixRows (ofTwo 3 0 .empty)⟩, ⟨[], skewPage sixRows (ofTwo 3 0 (rowKey 3))⟩],
    [⟨[], skewPage sixRows (ofTwo 3 1 .empty)⟩]]

/-- All six rows of a table match and six are wanted, and the provider has pages to the end of each
segment; but the segment that has the rows stops at its share of three. -/
theorem limited_scan_falls_short :
    (scanPager (skewPage sixRows)).PagesThrough (skewTable sixRows) (fun _ => some) ∧
    sixInTwo.compile = .ok { table := "users" } ∧
    List.Forall₂ (fun r ds => ∀ state, (new (scanPager (skewPage sixRows))).Serves .scan r state ds)
      (requestsFor (({ table := "users" } : ScanRequest).sized sixInTwo.paging 2) 2)
      oneSidedSegments ∧
    ∃ result s',
      (⟨(), {}, []⟩ : Session Unit).run
          ((new (scanPager (skewPage sixRows))).scan 2 sixInTwo) = (.ok (some result), s') ∧
        result.items.length = 3 ∧
        min 6 ((skewTable sixRows).matching (fun _ => some) { table := "users" }).length = 6 := by
  refine ⟨skewPager_pagesThrough sixRows, rfl, ?_, _, _, rfl, ?_, ?_⟩
  · refine .cons ?_ (.cons ?_ .nil)
    · intro state
      exact .more (scanPager_delivers ..) rfl (.last (scanPager_delivers ..) rfl)
    · intro state
      exact .last (scanPager_delivers ..) rfl
  · decide +kernel
  · decide +kernel

end Store

end ItemStore
