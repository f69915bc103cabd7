import ItemStore.Proofs.Store.Pages
import ItemStore.Proofs.Store.Tables

/-!
# Segments that are read one by one

A scan of several segments has a lane for each of them.  A lane reads the pages of its segment until
it has its share of what is wanted or the pages end, and what the lanes yield is put together in the
order of the segments.

* `ServesLanes` says which pages a provider has for the lanes.
* `run_drainSegments_serves` finds the lanes that a scan goes through, and what it puts together.
* `LaneRead.items_eq`: a lane brings the first items that match in its segment.
-/

namespace ItemStore

/-! ## Lanes -/

/-- What comes for the pages of a segment, and how much of it is read. -/
structure Lane where
  /-- The request for the first page. -/
  request : ScanRequest
  /-- What comes for the pages, one after another. -/
  deliveries : List (Delivery .scan)
  /-- How many of the pages are read. -/
  read : Nat

namespace Lane

variable (share : Option Nat) (lane : Lane)

/-- The pages of the segment, as far as they may be needed. -/
def pages : List Page := Store.pagesOf .scan lane.deliveries

/-- The pages that are read. -/
def pagesRead : List Page := lane.pages.take lane.read

/-- The submissions that these pages answer. -/
def submissions : List (Submission .scan) :=
  (Store.submissionsOf PageKind.scan.page PageKind.scan.resume lane.request
    lane.deliveries).take lane.read

/-- The first items of the segment, no more than the share of a lane. -/
def items : List Item := upTo share (lane.pages.flatMap Page.items)

/-- How many items of the segment match: the share where a lane has it, and otherwise what the pages
report.  A page that reports a negative number counts as one that reports none. -/
def count : Nat :=
  match share.filter (· ≤ (lane.pagesRead.flatMap Page.items).length) with
  | some n => n
  | none => (lane.pagesRead.map fun p => p.count.toInt.toNat).sum

/-- How many items were looked at, by what the pages report; a negative number counts as none. -/
def scannedCount : Nat := (lane.pagesRead.map fun p => p.scannedCount.toInt.toNat).sum

/-- What a lane returns. -/
def result : PageResult :=
  (lane.pagesRead.foldl PageResult.absorb {}).finish share true (lane.pages.head?.bind Page.next?)

end Lane

/-- What comes behind enough items makes no difference. -/
theorem upTo_append_of_reached {limit : Option Nat} {items : List Item} (h : Reached limit items)
    (rest : List Item) : upTo limit (items ++ rest) = upTo limit items := by
  obtain ⟨n, rfl, hn⟩ := h
  exact List.take_append_of_le_length hn

/-- The first items of the pages that are read are those of all pages: a read stops before the last
page only if it has enough. -/
theorem StopsAt.upTo_eq {limit : Option Nat} {pages : List Page} {j : Nat}
    (h : StopsAt limit true [] pages j) :
    upTo limit ((pages.take j).flatMap Page.items) = upTo limit (pages.flatMap Page.items) := by
  by_cases hlast : pages.length ≤ j
  · rw [List.take_of_length_le hlast]
  · have henough : Reached limit ((pages.take j).flatMap Page.items) :=
      h.stops rfl (Nat.lt_of_not_le hlast)
    have hsplit : pages.flatMap Page.items =
        (pages.take j).flatMap Page.items ++ (pages.drop j).flatMap Page.items := by
      rw [← List.flatMap_append, List.take_append_drop]
    rw [hsplit, upTo_append_of_reached henough]

namespace Lane

variable {share : Option Nat} {lane : Lane}

theorem items_result (h : StopsAt share true [] lane.pages lane.read) :
    (lane.result share).items = lane.items share := by
  rw [result, PageResult.items_finish, PageResult.items_foldl_absorb]
  exact h.upTo_eq

theorem count_result : (lane.result share).count = lane.count share := by
  have hitems : (lane.pagesRead.foldl PageResult.absorb {}).items =
      lane.pagesRead.flatMap Page.items := PageResult.items_foldl_absorb {} _
  unfold count
  rw [← hitems]
  by_cases h : Reached share (lane.pagesRead.foldl PageResult.absorb {}).items
  · obtain ⟨n, hn, hle⟩ := h
    rw [PageResult.filter_of_reached hn hle]
    exact PageResult.count_finish_of_reached hn hle
  · rw [PageResult.filter_of_not_reached h, result, PageResult.count_finish_of_not_reached h,
      PageResult.count_foldl_absorb]
    exact Nat.zero_add _

theorem scannedCount_result : (lane.result share).scannedCount = lane.scannedCount := by
  rw [result, PageResult.scannedCount_finish, PageResult.scannedCount_foldl_absorb]
  exact Nat.zero_add _

theorem lastKey_result : (lane.result share).lastKey = none := by
  rw [result, PageResult.lastKey_finish, PageResult.lastKey_foldl_absorb]
  rfl

theorem segmentKeys_result : (lane.result share).segmentKeys = [] := by
  rw [result, PageResult.segmentKeys_finish, PageResult.segmentKeys_foldl_absorb]

end Lane

/-! ## Lanes put together -/

namespace PageResult

/-- What the results of lanes come to, one behind another. -/
def together (parts : List PageResult) (r : PageResult) : PageResult :=
  parts.foldl (fun r part => r.absorbSegment part true) r

variable (parts : List PageResult) (r : PageResult)

theorem items_together : (together parts r).items = r.items ++ parts.flatMap items := by
  unfold together
  induction parts generalizing r with
  | nil => simp
  | cons part parts ih =>
    rw [List.foldl_cons, ih, absorbSegment, List.flatMap_cons, List.append_assoc]

theorem count_together : (together parts r).count = r.count + (parts.map count).sum := by
  unfold together
  induction parts generalizing r with
  | nil => simp
  | cons part parts ih =>
    rw [List.foldl_cons, ih, absorbSegment, List.map_cons, List.sum_cons, Nat.add_assoc]

theorem scannedCount_together :
    (together parts r).scannedCount = r.scannedCount + (parts.map scannedCount).sum := by
  unfold together
  induction parts generalizing r with
  | nil => simp
  | cons part parts ih =>
    rw [List.foldl_cons, ih, absorbSegment, List.map_cons, List.sum_cons, Nat.add_assoc]

theorem lastKey_together : (together parts r).lastKey = r.lastKey := by
  unfold together
  induction parts generalizing r with
  | nil => rfl
  | cons part parts ih =>
    rw [List.foldl_cons, ih]
    rfl

theorem segmentKeys_together : (together parts r).segmentKeys = r.segmentKeys := by
  unfold together
  induction parts generalizing r with
  | nil => rfl
  | cons part parts ih =>
    rw [List.foldl_cons, ih]
    rfl

end PageResult

/-! ## The loop over lanes -/

namespace Store

variable {σ : Type}

/-- The deliveries that a provider has for lanes, one lane after another: for each lane those of its
segment, as many as it needs, and for the next one those that it has when the lane has read as much
as it is to. -/
inductive ServesLanes (store : Store σ) (share : Option Nat) :
    List ScanRequest → σ → List (List (Delivery .scan)) → Prop where
  /-- No lane is left. -/
  | nil {state} : ServesLanes store share [] state []
  /-- A lane, and those behind it. -/
  | cons {request requests state ds dss} : store.ServesEnough .scan share [] request state ds →
      (∀ j, StopsAt share true [] (pagesOf .scan ds) j →
        ServesLanes store share requests (store.stateBehind .scan request state (ds.take j)) dss) →
      ServesLanes store share (request :: requests) state (ds :: dss)

section Lanes

variable {store : Store σ} {share : Option Nat} {requests : List ScanRequest}
  {dss : List (List (Delivery .scan))}

/-- A provider whose state makes no difference serves the lanes if it serves each of them. -/
theorem servesLanes_of_forall₂
    (h : List.Forall₂
      (fun request ds => ∀ state, store.ServesEnough .scan share [] request state ds) requests dss)
    (state : σ) : store.ServesLanes share requests state dss := by
  induction h generalizing state with
  | nil => exact .nil
  | cons hserves _ ih => exact .cons (hserves state) fun j _ => ih _

/-- A provider has the pages of a lane, and the lane reads as many of them as it is to. -/
structure LaneRead (store : Store σ) (share : Option Nat) (lane : Lane) : Prop where
  /-- There is something for every page of the segment that may be needed. -/
  served : ∃ state, store.ServesEnough .scan share [] lane.request state lane.deliveries
  /-- A lane reads on until it has its share. -/
  stops : StopsAt share true [] lane.pages lane.read

/-- A lane that is served is read as far as it is to be. -/
theorem run_drain_lane {request : ScanRequest} {s : Session σ} {ds : List (Delivery .scan)}
    (h : store.ServesEnough .scan share [] request s.state ds) {budget : Nat}
    (hbudget : ds.length ≤ budget) :
    ∃ j s', store.LaneRead share ⟨request, ds, j⟩ ∧
      s.run (store.drain .scan share true budget request) =
        (.ok (some (Lane.result share ⟨request, ds, j⟩)), s') ∧
      s'.log = s.log ++
        (Lane.submissions ⟨request, ds, j⟩).flatMap Submission.attempts ∧
      s'.state = store.stateBehind .scan request s.state (ds.take j) := by
  have hkey : ({} : PageResult).lastKey = none := rfl
  have hserved : store.ServesEnough .scan share ({} : PageResult).items request s.state ds := h
  obtain ⟨j, s', hstops, hrun, hlog, hstate⟩ := run_drainAfter_enough hserved true hbudget hkey
  exact ⟨j, s', ⟨⟨_, h⟩, hstops⟩, hrun, hlog, hstate⟩

/-- Lanes are read one after another, and their results put together in this order.  The induction
is on the lanes. -/
theorem run_drainSegments_serves {s : Session σ}
    (h : store.ServesLanes share requests s.state dss) {budget : Nat}
    (hbudget : ∀ ds ∈ dss, ds.length ≤ budget) (collected : PageResult) :
    ∃ (lanes : List Lane) (s' : Session σ), lanes.map Lane.request = requests ∧
      lanes.map Lane.deliveries = dss ∧
      (∀ lane ∈ lanes, store.LaneRead share lane) ∧
      s.run (store.drainSegments share true budget collected requests) =
        (.ok (some (.together (lanes.map (Lane.result share)) collected)), s') ∧
      s'.log = s.log ++
        lanes.flatMap fun lane => lane.submissions.flatMap Submission.attempts := by
  generalize hstate : s.state = state at h
  induction h generalizing s collected with
  | nil => exact ⟨[], s, rfl, rfl, by simp, rfl, by simp⟩
  | @cons request requests state ds dss hserves hrest ih =>
    subst hstate
    obtain ⟨hfirst, hothers⟩ := List.forall_mem_cons.1 hbudget
    obtain ⟨j, s', hread, hrun, hlog, hstate⟩ := run_drain_lane hserves hfirst
    obtain ⟨lanes, s'', hrequests, hdss, hreads, hrun', hlog'⟩ := ih j hread.stops hothers
      (collected.absorbSegment (Lane.result share ⟨request, ds, j⟩) true) hstate
    refine ⟨⟨request, ds, j⟩ :: lanes, s'', ?_, ?_, ?_, ?_, ?_⟩
    · rw [List.map_cons, hrequests]
    · rw [List.map_cons, hdss]
    · exact List.forall_mem_cons.2 ⟨hread, hreads⟩
    · rw [drainSegments, Session.run_bind, hrun]
      exact hrun'
    · rw [hlog', hlog, List.flatMap_cons, List.append_assoc]

end Lanes

/-! ## The requests of a lane -/

/-- The requests that go on behind a page differ from the first one in their start key only. -/
theorem request_of_mem_submissionsOf {request : ScanRequest} {ds : List (Delivery .scan)}
    {x : Submission .scan}
    (h : x ∈ submissionsOf PageKind.scan.page PageKind.scan.resume request ds) :
    ∃ key, x.request = ({ request with startKey := key } : ScanRequest) := by
  induction ds generalizing request with
  | nil => cases h
  | cons d ds ih =>
    rcases List.mem_cons.1 h with rfl | h
    · exact ⟨request.startKey, rfl⟩
    · obtain ⟨key, hkey⟩ := ih h
      exact ⟨key, hkey⟩

/-- A lane begins with its request. -/
theorem LaneRead.head? {store : Store σ} {share : Option Nat} {lane : Lane}
    (h : store.LaneRead share lane) :
    ∃ x, lane.submissions.head? = some x ∧ x.request = lane.request := by
  obtain ⟨request, ds, j⟩ := lane
  have hpos : 1 ≤ j := h.stops.pos
  have hle := h.stops.le
  obtain ⟨j, rfl⟩ : ∃ n, j = n + 1 := ⟨j - 1, by omega⟩
  cases ds with
  | nil => simp [Lane.pages, pagesOf] at hle
  | cons d ds => exact ⟨d.submission request, rfl, rfl⟩

/-! ## What the pages of a segment have -/

theorem Delivers.answered {op : Operation} {store : Store σ} {request : op.Request} {state : σ}
    {d : Delivery op} (h : store.Delivers request state d) :
    ∃ state', (store.provider op request state').1.outcome = .ok d.response := by
  have houtcome := Delivers.outcome_response (s := ⟨state, {}, []⟩) h
  unfold outcome at houtcome
  split at houtcome
  · cases houtcome
  · exact ⟨_, houtcome⟩

/-- The pages of a segment have the first of what matches in it: all of it, or enough.  The
induction is on the pages; each of them has some of it, and its key leads to the rest. -/
theorem ServesEnough.exists_matching {store : Store σ} {table : Table}
    {pick : ScanRequest → Item → Option Item} (hpages : store.provider.PagesThrough table pick)
    {limit : Option Nat} {before : List Item} {request : Operation.scan.Request} {state : σ}
    {ds : List (Delivery .scan)} (h : store.ServesEnough .scan limit before request state ds) :
    ∃ rest, (pagesOf .scan ds).flatMap Page.items ++ rest = table.matching pick request ∧
      (rest = [] ∨ Reached limit (before ++ (pagesOf .scan ds).flatMap Page.items)) := by
  induction h with
  | @last before request state d hd hlast =>
    obtain ⟨state', hanswer⟩ := hd.answered
    have hsplit := hpages.split hanswer
    have hitems : (pagesOf .scan [d]).flatMap Page.items = Page.items d.response :=
      List.flatMap_singleton ..
    rw [hitems]
    refine ⟨_, hsplit, hlast.imp ?_ id⟩
    intro hnext
    have hnext' : Page.next? d.response = none := hnext
    rw [hnext']
    rfl
  | @more before request state d key ds hd hnext _ ih =>
    obtain ⟨state', hanswer⟩ := hd.answered
    have hsplit := hpages.split hanswer
    have hnext' : Page.next? d.response = some key := hnext
    rw [hnext'] at hsplit
    -- the next request is for what is left behind the key
    have hleft : (table.leftFor request (some key)).filterMap (pick request.whole) =
        table.matching pick (PageKind.scan.resume request key) := rfl
    obtain ⟨rest, hrest, henough⟩ := ih
    have hitems : (pagesOf .scan (d :: ds)).flatMap Page.items =
        Page.items d.response ++ (pagesOf .scan ds).flatMap Page.items := List.flatMap_cons ..
    rw [hleft, ← hrest, ← List.append_assoc, ← hitems] at hsplit
    refine ⟨rest, hsplit, ?_⟩
    rw [hitems, ← List.append_assoc]
    exact henough

/-- A lane brings the first items that match in its segment, no more than its share. -/
theorem LaneRead.items_eq {store : Store σ} {table : Table}
    {pick : ScanRequest → Item → Option Item} (hpages : store.provider.PagesThrough table pick)
    {share : Option Nat} {lane : Lane} (h : store.LaneRead share lane) :
    lane.items share = upTo share (table.matching pick lane.request) := by
  obtain ⟨state, hserved⟩ := h.served
  obtain ⟨rest, hrest, henough⟩ := hserved.exists_matching hpages
  rw [← hrest]
  rcases henough with rfl | henough
  · rw [List.append_nil]
    rfl
  · exact (upTo_append_of_reached henough rest).symm

end Store

end ItemStore
