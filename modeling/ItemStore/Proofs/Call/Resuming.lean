import ItemStore.Proofs.Store.Pages
import ItemStore.Proofs.Store.Tables
import ItemStore.Store.Calls

/-!
# Scans that are resumed

A scan that is not to go on reads one page of each of its segments and reports the keys behind them,
so that it can be resumed.  The keys are the provider's, and they lie behind all that was looked at;
but what is returned is cut, each page to its segment's share of the limit and then all of them to
the limit.  What is cut off is neither returned nor found behind the keys: `CutOff` lists it.

* `run_drain_once` and `run_drainSegments_once` say which pages a scan reads.
* `ahead_requestsFor_perm` says that its requests are for the whole table.
* `scan_loses_only_what_it_cuts` puts this together, and says when nothing is cut off.
-/

namespace ItemStore

/-! ## What is cut off -/

/-- The items that are more than are wanted. -/
def beyond (limit : Option Nat) (items : List Item) : List Item :=
  match limit with
  | some n => items.drop n
  | none => []

theorem upTo_append_beyond (limit : Option Nat) (items : List Item) :
    upTo limit items ++ beyond limit items = items := by
  cases limit with
  | none => exact List.append_nil items
  | some n => exact List.take_append_drop n items

theorem upTo_upTo (limit : Option Nat) (items : List Item) :
    upTo limit (upTo limit items) = upTo limit items := by
  cases limit with
  | none => rfl
  | some n => simp [upTo, List.take_take]

/-- What is left of pages when each of them is cut to a share. -/
def shares (share : Option Nat) (pages : List Page) : List Item :=
  pages.flatMap fun p => upTo share p.items

/-- What is cut off from pages, all in all and from each of them. -/
def cutOff (limit share : Option Nat) (pages : List Page) : List Item :=
  beyond limit (shares share pages) ++ pages.flatMap fun p => beyond share p.items

/-- What is returned and what is cut off are what the pages have. -/
theorem upTo_shares_append_cutOff (limit share : Option Nat) (pages : List Page) :
    (upTo limit (shares share pages) ++ cutOff limit share pages).Perm
      (pages.flatMap Page.items) := by
  rw [cutOff, ← List.append_assoc, upTo_append_beyond, shares]
  refine (List.flatMap_append_perm ..).trans ?_
  simp only [upTo_append_beyond]
  exact .refl _

theorem length_shares_le (share : Nat) (pages : List Page) :
    (shares (some share) pages).length ≤ pages.length * share := by
  induction pages with
  | nil => exact Nat.zero_le _
  | cons p pages ih =>
    have hfirst : (upTo (some share) p.items).length ≤ share := List.length_take_le ..
    have hsplit : (shares (some share) (p :: pages)).length =
        (upTo (some share) p.items).length + (shares (some share) pages).length :=
      List.length_append
    rw [hsplit, List.length_cons, Nat.succ_mul]
    omega

theorem cutOff_none (pages : List Page) : cutOff none none pages = [] := by
  simp [cutOff, beyond]

/-- Nothing is cut off from pages that keep to their share of a limit, if the shares do. -/
theorem cutOff_eq_nil {limit share : Nat} {pages : List Page}
    (hpages : ∀ p ∈ pages, p.items.length ≤ share) (hall : pages.length * share ≤ limit) :
    cutOff (some limit) (some share) pages = [] := by
  refine List.append_eq_nil_iff.2 ⟨?_, ?_⟩
  · exact List.drop_eq_nil_of_le ((length_shares_le share pages).trans hall)
  · refine List.flatMap_eq_nil_iff.2 fun p hp => ?_
    exact List.drop_eq_nil_of_le (hpages p hp)

namespace PageResult

/-- What is returned for a page when a read is not to go on. -/
def ofPage (limit : Option Nat) (page : Page) : PageResult :=
  (({} : PageResult).absorb page).finish limit false page.next?

theorem items_ofPage (limit : Option Nat) (page : Page) :
    (ofPage limit page).items = upTo limit page.items := by
  rw [ofPage, items_finish]
  rfl

theorem lastKey_ofPage (limit : Option Nat) (page : Page) :
    (ofPage limit page).lastKey = page.next? := by
  rw [ofPage, lastKey_finish]
  rfl

/-- What pages of segments are put together to. -/
def ofSegments (share : Option Nat) (pages : List Page) (r : PageResult) : PageResult :=
  pages.foldl (fun r p => r.absorbSegment (ofPage share p) false) r

variable (share : Option Nat) (pages : List Page) (r : PageResult)

theorem items_ofSegments : (ofSegments share pages r).items = r.items ++ shares share pages := by
  unfold ofSegments shares
  induction pages generalizing r with
  | nil => simp
  | cons p pages ih =>
    rw [List.foldl_cons, ih]
    simp [absorbSegment, items_ofPage]

theorem segmentKeys_ofSegments :
    (ofSegments share pages r).segmentKeys = r.segmentKeys ++ pages.map Page.next? := by
  unfold ofSegments
  induction pages generalizing r with
  | nil => simp
  | cons p pages ih =>
    rw [List.foldl_cons, ih]
    simp [absorbSegment, lastKey_ofPage]

end PageResult

/-! ## Scans and their sizes -/

/-- A scan is compiled without a place in the table, and begins where it is to begin. -/
theorem Call.Scan.place_of_compile (c : Call.Scan) {request : ScanRequest}
    (h : c.compile = .ok request) :
    (request.segment = none ∧ request.totalSegments = none) ∧ request.startKey = c.startKey := by
  obtain ⟨bundle, -, hrequest⟩ := bind_eq_ok.1 h
  cases hrequest
  exact ⟨⟨rfl, rfl⟩, rfl⟩

theorem segmentCount_pos (requested : Nat) (limit : Option Nat) :
    1 ≤ Paging.segmentCount requested limit := by
  cases limit with
  | none => exact Nat.le_max_left ..
  | some n => exact Nat.le_min.2 ⟨Nat.le_max_left .., Nat.le_max_left ..⟩

theorem ceilDiv_mul_self {d : Nat} (h : 1 ≤ d) (n : Nat) : ceilDiv (d * n) d = n := by
  unfold ceilDiv
  rw [Nat.add_sub_assoc h, Nat.mul_add_div h, Nat.div_eq_of_lt (by omega), Nat.add_zero]

theorem toNat_clamp_le (n : Nat) : (Paging.clamp n).toInt.toNat ≤ n := by
  have hmost : 2 ≤ twoTo 31 := by decide
  rw [Paging.clamp, toNat_toInt_ofNat (by omega)]
  exact Nat.min_le_left ..

namespace Store

variable {σ : Type}

/-! ## One page of each segment -/

/-- A provider that never keeps failing: in every state it has a page for every scan. -/
def Answering (store : Store σ) : Prop :=
  ∀ (request : ScanRequest) (state : σ), ∃ d : Delivery .scan, store.Delivers request state d

/-- A page is an answer to a scan. -/
def Answers (store : Store σ) (request : ScanRequest) (page : Page) : Prop :=
  ∃ state, (store.provider .scan request state).1.outcome = .ok page

section Once

variable (store : Store σ) {budget : Nat} (hbudget : 1 ≤ budget)
include hbudget

/-- A read that is not to go on fails, because the provider does, or returns what it has of a
page. -/
theorem run_drain_once (limit : Option Nat) (request : ScanRequest) (s : Session σ) :
    (¬ store.Answering ∧
      ∃ e s', s.run (store.drain .scan limit false budget request) = (.error e, s')) ∨
    ∃ page s', store.Answers request page ∧
      s.run (store.drain .scan limit false budget request) =
        (.ok (some (.ofPage limit page)), s') := by
  obtain ⟨budget, rfl⟩ : ∃ n, budget = n + 1 := ⟨budget - 1, by omega⟩
  rcases store.run_send_answered (show Operation.scan.Request from request) s with
    ⟨hnone, e, s', hrun⟩ | ⟨page, s', hrun, hpage⟩
  · exact .inl ⟨fun h => hnone (h request s.state), e, s', run_drainAfter_failed hrun⟩
  · exact .inr ⟨page, s', hpage, run_drainAfter_stop hrun rfl (.inr (.inr rfl))⟩

/-- A scan of segments that is not to go on fails, because the provider does, or returns what it has
of a page of each segment.  The induction is on the segments. -/
theorem run_drainSegments_once (share : Option Nat) (requests : List ScanRequest)
    (collected : PageResult) (s : Session σ) :
    (¬ store.Answering ∧
      ∃ e s', s.run (store.drainSegments share false budget collected requests) =
        (.error e, s')) ∨
    ∃ pages s', List.Forall₂ store.Answers requests pages ∧
      s.run (store.drainSegments share false budget collected requests) =
        (.ok (some (.ofSegments share pages collected)), s') := by
  induction requests generalizing collected s with
  | nil => exact .inr ⟨[], s, .nil, rfl⟩
  | cons request requests ih =>
    rcases store.run_drain_once hbudget share request s with
      ⟨hfailing, e, s', hrun⟩ | ⟨page, s', hpage, hrun⟩
    · refine .inl ⟨hfailing, e, s', ?_⟩
      rw [drainSegments, Session.run_bind, hrun]
    · have hnext : s.run (store.drainSegments share false budget collected (request :: requests)) =
          s'.run (store.drainSegments share false budget
            (collected.absorbSegment (.ofPage share page) false) requests) := by
        rw [drainSegments, Session.run_bind, hrun]
      rw [hnext]
      rcases ih (collected.absorbSegment (.ofPage share page) false) s' with
        hfailed | ⟨pages, s'', hpages, hrun'⟩
      · exact .inl hfailed
      · exact .inr ⟨page :: pages, s'', .cons hpage hpages, hrun'⟩

end Once

/-! ## The requests of a scan -/

/-- The first requests of a scan: one for all of the table, or one for each segment. -/
def requestsFor (request : ScanRequest) (segments : Nat) : List ScanRequest :=
  if segments = 1 then [request] else segmentRequests request (min segments (twoTo 31 - 1))

section Requests

variable (request : ScanRequest) (segments : Nat)

theorem length_requestsFor_le (hpos : 1 ≤ segments) :
    (requestsFor request segments).length ≤ segments := by
  unfold requestsFor
  split
  · exact hpos
  · simp only [segmentRequests, List.length_map, List.length_range]
    exact Nat.min_le_left ..

/-- The requests differ only in where they read. -/
theorem of_mem_requestsFor {r : ScanRequest} (h : r ∈ requestsFor request segments) :
    r.whole = request.whole ∧ r.limit = request.limit := by
  unfold requestsFor at h
  split at h
  · rw [List.mem_singleton.1 h]
    exact ⟨rfl, rfl⟩
  · obtain ⟨i, -, rfl⟩ := List.mem_map.1 h
    exact ⟨rfl, rfl⟩

/-- The requests of a scan are for the whole table together; one for all of it begins behind the
start key. -/
theorem ahead_requestsFor_perm (table : Table) (hpos : 1 ≤ segments)
    (hone : request.segment = none ∧ request.totalSegments = none) :
    ((requestsFor request segments).flatMap table.ahead).Perm
      (table.behind none none (if segments = 1 then request.startKey else .empty)) := by
  unfold requestsFor
  split
  · simp [Table.ahead, hone.1, hone.2]
  · have hmost : 2 ≤ twoTo 31 := by decide
    have hdivided := table.divided (min segments (twoTo 31 - 1)) (by omega) (by omega)
    rw [segmentRequests, List.flatMap_map]
    exact hdivided

end Requests

/-- A scan that is not to go on fails, because the provider does, or reads one page for each of its
requests. -/
theorem run_runScan_once (store : Store σ) {budget : Nat} (hbudget : 1 ≤ budget)
    {options : PageOptions} (hrecursive : options.recursive = false)
    (hlimit : options.limit ≠ some 0) {requested segments : Nat}
    (hsegments : Paging.segmentCount requested options.limit = segments)
    (request : ScanRequest) (s : Session σ) :
    (¬ store.Answering ∧
      ∃ e s', s.run (store.runScan options requested budget request) = (.error e, s')) ∨
    ∃ result pages s', s.run (store.runScan options requested budget request) =
        (.ok (some result), s') ∧
      List.Forall₂ store.Answers (requestsFor (request.sized options segments) segments) pages ∧
      result.items = upTo options.limit
        (shares (options.limit.map fun limit => ceilDiv limit segments) pages) ∧
      result.segmentKeys = pages.map Page.next? := by
  by_cases hone : segments = 1
  · subst hone
    have hshare : (options.limit.map fun limit => ceilDiv limit 1) = options.limit := by
      simp [ceilDiv_one]
    rw [store.runScan_eq_single budget hlimit hsegments, hrecursive, Session.run_bind, hshare,
      requestsFor, if_pos rfl]
    rcases store.run_drain_once hbudget options.limit (request.sized options 1) s with
      ⟨hfailing, e, s', hrun⟩ | ⟨page, s', hpage, hrun⟩
    · exact .inl ⟨hfailing, e, s', by rw [hrun]⟩
    · refine .inr ⟨_, [page], s', by rw [hrun]; rfl, .cons hpage .nil, ?_, ?_⟩
      · simp [PageResult.items_ofPage, shares, upTo_upTo]
      · simp [PageResult.lastKey_ofPage]
  · rw [store.runScan_eq_many budget hlimit hsegments hone, hrecursive, Session.run_bind,
      requestsFor, if_neg hone]
    rcases store.run_drainSegments_once hbudget (options.limit.map fun limit =>
      ceilDiv limit segments) (segmentRequests (request.sized options segments)
        (min segments (twoTo 31 - 1))) {} s with
      ⟨hfailing, e, s', hrun⟩ | ⟨pages, s', hpages, hrun⟩
    · exact .inl ⟨hfailing, e, s', by rw [hrun]⟩
    · refine .inr ⟨_, pages, s', by rw [hrun]; rfl, hpages, ?_, ?_⟩
      · rw [PageResult.items_cut, PageResult.items_ofSegments]
        rfl
      · rw [PageResult.segmentKeys_cut, PageResult.segmentKeys_ofSegments]
        rfl

/-! ## What is lost -/

/-- What is left of a table for scans behind the keys that were reported to them. -/
def leftForAll (table : Table) (requests : List ScanRequest) (keys : List (Option Item)) :
    List Item :=
  (requests.zip keys).flatMap fun e => table.leftFor e.1 e.2

/-- What pages have and what matches behind their keys are what matches for their scans. -/
theorem items_append_leftForAll_perm {store : Store σ} {table : Table}
    {pick : ScanRequest → Item → Option Item} (h : store.provider.PagesThrough table pick)
    {requests : List ScanRequest} {pages : List Page}
    (hanswers : List.Forall₂ store.Answers requests pages) {whole : ScanRequest}
    (hwhole : ∀ r ∈ requests, r.whole = whole) :
    (pages.flatMap Page.items ++
      (leftForAll table requests (pages.map Page.next?)).filterMap (pick whole)).Perm
      ((requests.flatMap table.ahead).filterMap (pick whole)) := by
  induction hanswers with
  | nil => exact .refl _
  | @cons request page requests pages hpage _ ih =>
    obtain ⟨hrequest, hrest⟩ := List.forall_mem_cons.1 hwhole
    obtain ⟨state, hpage⟩ := hpage
    have hsplit := h.split hpage
    rw [hrequest] at hsplit
    have hleft : leftForAll table (request :: requests) ((page :: pages).map Page.next?) =
        table.leftFor request page.next? ++
          leftForAll table requests (pages.map Page.next?) := rfl
    rw [hleft, List.flatMap_cons, List.flatMap_cons, List.filterMap_append, List.filterMap_append,
      ← hsplit, List.append_assoc, List.append_assoc]
    exact ((List.perm_append_comm_assoc ..).trans ((ih hrest).append_left _)).append_left _

/-- **A scan that is resumed at its keys loses what was cut off, and nothing else.**

A scan that is not to go on fails, because the provider does, or returns what is left of one page
for each of its requests, with the keys of these pages.  What it returns, what is cut off from the
pages and what matches behind the keys are together all that matches in the table.  Nothing is cut
off if there is no limit, or no size of pages, no filter and a limit that divides evenly among the
segments. -/
theorem scan_loses_only_what_it_cuts (store : Store σ) (table : Table)
    (pick : ScanRequest → Item → Option Item) (hpages : store.provider.PagesThrough table pick)
    (c : Call.Scan) (request : ScanRequest) (hcompile : c.compile = .ok request)
    (hrecursive : c.paging.recursive = false) (hlimit : c.paging.limit ≠ some 0) (segments : Nat)
    (hsegments : Paging.segmentCount (c.segments.getD store.config.scanSegments) c.paging.limit =
      segments)
    (budget : Nat) (hbudget : 1 ≤ budget) (s : Session σ) :
    (¬ store.Answering ∧ ∃ e s', s.run (store.scan budget c) = (.error e, s')) ∨
    ∃ result pages s', s.run (store.scan budget c) = (.ok (some result), s') ∧
      result.items = upTo c.paging.limit
        (shares (c.paging.limit.map fun limit => ceilDiv limit segments) pages) ∧
      result.segmentKeys = pages.map Page.next? ∧
      (result.items ++
        cutOff c.paging.limit (c.paging.limit.map fun limit => ceilDiv limit segments) pages ++
        (leftForAll table (requestsFor (request.sized c.paging segments) segments)
          result.segmentKeys).filterMap (pick request.whole)).Perm
        ((table.behind none none (if segments = 1 then c.startKey else .empty)).filterMap
          (pick request.whole)) ∧
      (c.paging.limit = none ∨ c.paging.pageSize = none ∧ request.filter = none ∧
          (∃ limit, c.paging.limit = some limit ∧ segments ∣ limit) →
        cutOff c.paging.limit (c.paging.limit.map fun limit => ceilDiv limit segments) pages =
          []) := by
  obtain ⟨hplace, hstart⟩ := c.place_of_compile hcompile
  have hscan : s.run (store.scan budget c) = s.run (store.runScan c.paging
      (c.segments.getD store.config.scanSegments) budget request) := by
    rw [scan, Session.run_lift_bind, hcompile]
  have hpos : 1 ≤ segments := hsegments ▸ segmentCount_pos _ _
  rw [hscan]
  rcases store.run_runScan_once hbudget hrecursive hlimit hsegments request s with
    hfailed | ⟨result, pages, s', hrun, hanswers, hitems, hkeys⟩
  · exact .inl hfailed
  refine .inr ⟨result, pages, s', hrun, hitems, hkeys, ?_, ?_⟩
  · have hall := ahead_requestsFor_perm (request.sized c.paging segments) segments table hpos hplace
    have hleft := items_append_leftForAll_perm hpages hanswers fun r hr =>
      (of_mem_requestsFor _ _ hr).1
    rw [hitems, hkeys, ← hstart]
    exact ((upTo_shares_append_cutOff ..).append_right _).trans
      (hleft.trans (hall.filterMap _))
  · rintro (hnone | ⟨hsize, hfilter, _, hn, n, rfl⟩)
    · rw [hnone]
      exact cutOff_none pages
    · -- every request asks for its share, and the shares add up to the limit
      have hshare : ceilDiv (segments * n) segments = n := ceilDiv_mul_self hpos n
      have hsized : (request.sized c.paging segments).limit = some (Paging.clamp n) := by
        simp [ScanRequest.sized, hsize, hn, hfilter, hshare]
      rw [hn, Option.map_some, hshare]
      refine cutOff_eq_nil ?_ ?_
      · intro p hp
        obtain ⟨r, hr, state, hpage⟩ := exists_of_mem_left hanswers.flip hp
        have hsize' := (of_mem_requestsFor _ _ hr).2.trans hsized
        exact (hpages.length_le hpage hsize').trans (toNat_clamp_le n)
      · rw [← hanswers.length_eq]
        exact Nat.mul_le_mul_right n (length_requestsFor_le _ _ hpos)

/-- Nine rows. -/
def nineRows : List Item :=
  (List.range 9).map fun i => .singleton "pk" (.string ("u" ++ toString i))

/-- A scan in two segments that is not to go on. -/
def scanInTwo (limit : Nat) : Call.Scan where
  table := "users"
  paging := { limit := some limit, recursive := false }
  segments := some 2

theorem rowPager_answering (rows : List Item) : (new (rowPager rows)).Answering := by
  intro request state
  exact ⟨⟨[], rowPage rows request⟩, by simp, Nat.le_max_left .., rfl⟩

theorem scan_loses_nothing_six : ∃ result s',
    (⟨(), {}, []⟩ : Session Unit).run ((new (rowPager nineRows)).scan 1 (scanInTwo 6)) =
      (.ok (some result), s') ∧
    (result.items ++ leftForAll (rowTable nineRows) (requestsFor
      (({ table := "users" } : ScanRequest).sized (scanInTwo 6).paging 2) 2)
        result.segmentKeys).Perm nineRows := by
  have hcompile : (scanInTwo 6).compile = .ok { table := "users" } := rfl
  rcases scan_loses_only_what_it_cuts (new (rowPager nineRows)) (rowTable nineRows) (fun _ => some)
      (rowPager_pagesThrough nineRows) (scanInTwo 6) _ hcompile rfl (by decide) 2 (by decide) 1
      (Nat.le_refl 1) ⟨(), {}, []⟩ with
    ⟨hfailing, -⟩ | ⟨result, pages, s', hrun, -, -, hperm, hnone⟩
  · exact absurd (rowPager_answering nineRows) hfailing
  · rw [hnone (.inr ⟨rfl, rfl, 6, rfl, by decide⟩), List.append_nil, List.filterMap_some,
      List.filterMap_some] at hperm
    exact ⟨result, s', hrun, hperm⟩

/-- Seven items do not divide evenly: of four rows of the second segment three are returned, and no
key is reported for it. -/
theorem scan_loses_row :
    (rowPager nineRows).PagesThrough (rowTable nineRows) (fun _ => some) ∧
    (scanInTwo 7).compile = .ok { table := "users" } ∧
    ∃ result s',
      (⟨(), {}, []⟩ : Session Unit).run ((new (rowPager nineRows)).scan 1 (scanInTwo 7)) =
        (.ok (some result), s') ∧
      result.segmentKeys = [some (rowKey 4), none] ∧
      ¬ (result.items ++ leftForAll (rowTable nineRows) (requestsFor
        (({ table := "users" } : ScanRequest).sized (scanInTwo 7).paging 2) 2)
          result.segmentKeys).Perm nineRows := by
  refine ⟨rowPager_pagesThrough nineRows, rfl, _, _, rfl, rfl, ?_⟩
  intro hperm
  exact absurd hperm.length_eq (by decide +kernel)

end Store

end ItemStore
