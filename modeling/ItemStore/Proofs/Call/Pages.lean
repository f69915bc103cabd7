import ItemStore.Proofs.Store.Pages
import ItemStore.Store.Calls

/-!
# Queries and scans read the pages they should

A query reads one page after another, and so does a scan of one segment.  Whatever pages a provider
has for them, and however many attempts each page takes, they read the pages up to the first one
with which they have enough, or all pages, or just the first one when they are not to go on.
`ReadsPages` says which pages these are and what is returned for them.

* `readsPages_finish` says what a read returns that stops behind so many pages.
* `run_drain_serves` says so of the loop, whatever it reads.
* `paged_reads_stop_in_time` says so of queries and of scans of one segment.
-/

namespace ItemStore

/-! ## What is returned -/

/-- A read goes through the first `j` of the pages that there are, and this is what is returned. -/
structure ReadsPages (options : PageOptions) (pages : List Page) (j : Nat) (result : PageResult) :
    Prop where
  /-- The pages end at the first one with which there is enough. -/
  stops : StopsAt options.limit options.recursive [] pages j
  /-- The items of these pages, no more than are wanted. -/
  items : result.items = upTo options.limit ((pages.take j).flatMap Page.items)
  /-- All items that were looked at count as such. -/
  scannedCount : (result.scannedCount : Int) =
    ((pages.take j).map fun p => p.scannedCount.toInt).sum
  /-- Where there was enough, the items count that were wanted. -/
  count_of_reached : ∀ n, options.limit = some n →
    n ≤ ((pages.take j).flatMap Page.items).length → result.count = n
  /-- Where there was not, the items count that the pages report. -/
  count_of_not_reached : ¬ Reached options.limit ((pages.take j).flatMap Page.items) →
    (result.count : Int) = ((pages.take j).map fun p => p.count.toInt).sum
  /-- A read that is to go on reports no key, and any other the key behind its page, if there is
  more. -/
  lastKey : result.lastKey = if options.recursive then none else pages.head?.bind Page.next?

/-- The pages report no negative counts. -/
def Countable (pages : List Page) : Prop :=
  ∀ p ∈ pages, 0 ≤ p.count.toInt ∧ 0 ≤ p.scannedCount.toInt

theorem sum_toNat {f : Page → Int32} {pages : List Page} (h : ∀ p ∈ pages, 0 ≤ (f p).toInt) :
    (((pages.map fun p => (f p).toInt.toNat).sum : Nat) : Int) =
      (pages.map fun p => (f p).toInt).sum := by
  induction pages with
  | nil => rfl
  | cons p pages ih =>
    obtain ⟨hp, hpages⟩ := List.forall_mem_cons.1 h
    rw [List.map_cons, List.map_cons, List.sum_cons, List.sum_cons, Int.natCast_add, ih hpages,
      Int.toNat_of_nonneg hp]

/-- What a read returns that stops behind the first `j` pages. -/
theorem readsPages_finish {options : PageOptions} {pages : List Page} {j : Nat}
    (hstops : StopsAt options.limit options.recursive [] pages j) (hcounts : Countable pages) :
    ReadsPages options pages j (((pages.take j).foldl PageResult.absorb {}).finish options.limit
      options.recursive (pages.head?.bind Page.next?)) := by
  have hitems : ((pages.take j).foldl PageResult.absorb {}).items =
      (pages.take j).flatMap Page.items := PageResult.items_foldl_absorb {} _
  have hread : Countable (pages.take j) := fun p hp => hcounts p (List.mem_of_mem_take hp)
  refine ⟨hstops, ?_, ?_, ?_, ?_, ?_⟩
  · rw [PageResult.items_finish, hitems]
  · rw [PageResult.scannedCount_finish, PageResult.scannedCount_foldl_absorb, Nat.zero_add]
    exact sum_toNat fun p hp => (hread p hp).2
  · intro n hn hle
    rw [← hitems] at hle
    exact PageResult.count_finish_of_reached hn hle
  · intro henough
    rw [← hitems] at henough
    rw [PageResult.count_finish_of_not_reached henough, PageResult.count_foldl_absorb,
      Nat.zero_add]
    exact sum_toNat fun p hp => (hread p hp).1
  · rw [PageResult.lastKey_finish, PageResult.lastKey_foldl_absorb]

namespace Store

variable {σ : Type}

/-! ## Queries and scans -/

/-- A read whose pages a provider has returns what the pages up to the right one come to, after the
submissions that these pages answer. -/
theorem run_drain_serves {op : Operation} {store : Store σ} {kind : PageKind op}
    (options : PageOptions) {request : op.Request} {s : Session σ} {ds : List (Delivery op)}
    (h : store.Serves kind request s.state ds) (hcounts : Countable (pagesOf kind ds))
    {budget : Nat} (hbudget : ds.length ≤ budget) :
    ∃ j result s', ReadsPages options (pagesOf kind ds) j result ∧ result.segmentKeys = [] ∧
      s.run (store.drain kind options.limit options.recursive budget request) =
        (.ok (some result), s') ∧
      s'.log = s.log ++
        ((submissionsOf kind.page kind.resume request ds).take j).flatMap Submission.attempts := by
  have hkey : ({} : PageResult).lastKey = none := rfl
  obtain ⟨j, s', hstops, hrun, hlog, -⟩ :=
    run_drainAfter_enough (h.enough options.limit []) options.recursive hbudget hkey
  refine ⟨j, _, s', readsPages_finish hstops hcounts, ?_, hrun, hlog⟩
  rw [PageResult.segmentKeys_finish, PageResult.segmentKeys_foldl_absorb]

/-- **A paged read goes through the pages that it should**, whatever pages a provider has for it,
the last one of them without a key, and however many attempts each of them takes.

A query, and a scan of one segment, read the pages up to the first one with which they have as many
items as are wanted, or all pages if that is never so, and only the first page when they are not to
go on.  Every request is the one before it with the key behind its page as start key, and attempts
at a page repeat its request.  What is returned is what `ReadsPages` says, and a scan of one segment
that is not to go on reports the key of its segment. -/
theorem paged_reads_stop_in_time (store : Store σ) (s : Session σ) (budget : Nat) :
    (∀ (q : Call.Query) (request : QueryRequest) (ds : List (Delivery .query)),
      q.compile = .ok request → q.paging.limit ≠ some 0 →
      store.Serves .query (request.sized q.paging) s.state ds →
      Countable (ds.map Delivery.response) → ds.length ≤ budget →
      ∃ j result s', s.run (store.query budget q) = (.ok (some result), s') ∧
        ReadsPages q.paging (ds.map Delivery.response) j result ∧
        result.segmentKeys = [] ∧
        s'.log = s.log ++ ((submissionsOf (fun page => page)
          (fun (r : QueryRequest) key => ({ r with startKey := key } : QueryRequest))
          (request.sized q.paging) ds).take j).flatMap Submission.attempts) ∧
    (∀ (c : Call.Scan) (request : ScanRequest) (ds : List (Delivery .scan)),
      c.compile = .ok request → c.paging.limit ≠ some 0 →
      Paging.segmentCount (c.segments.getD store.config.scanSegments) c.paging.limit = 1 →
      store.Serves .scan (request.sized c.paging 1) s.state ds →
      Countable (ds.map Delivery.response) → ds.length ≤ budget →
      ∃ j result s', s.run (store.scan budget c) = (.ok (some result), s') ∧
        ReadsPages c.paging (ds.map Delivery.response) j result ∧
        result.segmentKeys = (if c.paging.recursive then [] else [result.lastKey]) ∧
        s'.log = s.log ++ ((submissionsOf (fun page => page)
          (fun (r : ScanRequest) key => ({ r with startKey := key } : ScanRequest))
          (request.sized c.paging 1) ds).take j).flatMap Submission.attempts) := by
  constructor
  · intro q request ds hcompile hlimit hserves hcounts hbudget
    obtain ⟨j, result, s', hreads, hkeys, hrun, hlog⟩ :=
      run_drain_serves q.paging hserves hcounts hbudget
    refine ⟨j, result, s', ?_, hreads, hkeys, hlog⟩
    rw [query, Session.run_lift_bind, hcompile]
    show s.run (store.runQuery q.paging budget request) = _
    rw [store.runQuery_eq budget hlimit, hrun]
  · intro c request ds hcompile hlimit hsingle hserves hcounts hbudget
    obtain ⟨j, result, s', hreads, hkeys, hrun, hlog⟩ :=
      run_drain_serves c.paging hserves hcounts hbudget
    have hscan : s.run (store.scan budget c) = (.ok (some (if c.paging.recursive then result
        else { result with segmentKeys := [result.lastKey] })), s') := by
      rw [scan, Session.run_lift_bind, hcompile]
      show s.run (store.runScan c.paging _ budget request) = _
      rw [store.runScan_eq_single budget hlimit hsingle, Session.run_bind, hrun]
      rfl
    cases hrecursive : c.paging.recursive with
    | true =>
      rw [hrecursive] at hscan
      exact ⟨j, result, s', hscan, hreads, hkeys, hlog⟩
    | false =>
      rw [hrecursive] at hscan
      exact ⟨j, _, s', hscan, ⟨hreads.stops, hreads.items, hreads.scannedCount,
        hreads.count_of_reached, hreads.count_of_not_reached, hreads.lastKey⟩, rfl, hlog⟩

/-- A page of one item, a page without any behind which there is more all the same, and a last page
of two items. -/
def threePages : List Page :=
  [{ items := [.singleton "id" (.string "a")], count := 1, scannedCount := 1
     lastKey := .singleton "id" (.string "a") },
    { scannedCount := 4, lastKey := .singleton "id" (.string "m") },
    { items := [.singleton "id" (.string "x"), .singleton "id" (.string "z")], count := 2
      scannedCount := 2 }]

/-- A provider that has the three pages for every query and scan; its first attempt is lost. -/
def lossyPager : Provider Nat
  | .query, _, n => (answer n, n + 1)
  | .scan, _, n => (answer n, n + 1)
  | _, _, n => ({ outcome := .error (.transport "off") }, n)
where
  /-- The answer in a state. -/
  answer (n : Nat) : Reply Page :=
    { outcome := if n = 0 then .error (.transport "lost") else .ok (threePages.getD (n - 1) {}) }

/-- A query for two items. -/
def twoOfKey : Call.Query where
  table := "t"
  keyCondition := .compare (.path "id") .ge (.string "a")
  paging := { limit := some 2 }

/-- A scan of one segment for a single page. -/
def onePage : Call.Scan where
  table := "t"
  paging := { recursive := false }
  segments := some 1

/-- What comes for each of the three pages. -/
def threeDeliveries (op : Operation) (response : Page → op.Response) : List (Delivery op) :=
  [⟨[.transport "lost"], response (threePages.getD 0 {})⟩, ⟨[], response (threePages.getD 1 {})⟩,
    ⟨[], response (threePages.getD 2 {})⟩]

theorem paged_reads_stop_hesitant :
    (∃ result s', (⟨0, {}, []⟩ : Session Nat).run ((new lossyPager).query 3 twoOfKey) =
        (.ok (some result), s') ∧
      result.items = [.singleton "id" (.string "a"), .singleton "id" (.string "x")] ∧
      result.count = 2 ∧ (result.scannedCount : Int) = 7 ∧ result.lastKey = none ∧
      s'.log.length = 4) ∧
    ∃ result s', (⟨0, {}, []⟩ : Session Nat).run ((new lossyPager).scan 3 onePage) =
        (.ok (some result), s') ∧
      result.items = [.singleton "id" (.string "a")] ∧
      result.segmentKeys = [some (.singleton "id" (.string "a"))] ∧ s'.log.length = 2 := by
  have hcounts : Countable threePages := by
    unfold Countable
    decide
  constructor
  · obtain ⟨request, hrequest⟩ := exists_eq_ok (x := twoOfKey.compile) (by decide +kernel)
    have hserves : (new lossyPager).Serves .query (request.sized twoOfKey.paging) 0
        (threeDeliveries .query id) :=
      .more ⟨by decide, by decide, rfl⟩ rfl
        (.more ⟨by decide, by decide, rfl⟩ rfl (.last ⟨by decide, by decide, rfl⟩ rfl))
    obtain ⟨j, result, s', hrun, hreads, -, hlog⟩ := (paged_reads_stop_in_time (new lossyPager)
      ⟨0, {}, []⟩ 3).1 twoOfKey request _ hrequest (by decide) hserves hcounts (Nat.le_refl 3)
    have hall : j = 3 := by
      by_contra hne
      have hlt : j < 3 := Nat.lt_of_le_of_ne hreads.stops.le hne
      obtain ⟨n, hn, hle⟩ := hreads.stops.stops rfl hlt
      cases hn
      have hpos := hreads.stops.pos
      obtain rfl | rfl : j = 1 ∨ j = 2 := by omega
      · exact absurd hle (by decide)
      · exact absurd hle (by decide)
    subst hall
    exact ⟨result, s', hrun, hreads.items, hreads.count_of_reached 2 rfl (by decide),
      hreads.scannedCount, hreads.lastKey, by rw [hlog]; rfl⟩
  · obtain ⟨request, hrequest⟩ := exists_eq_ok (x := onePage.compile) (by decide +kernel)
    have hserves : (new lossyPager).Serves .scan (request.sized onePage.paging 1) 0
        (threeDeliveries .scan id) :=
      .more ⟨by decide, by decide, rfl⟩ rfl
        (.more ⟨by decide, by decide, rfl⟩ rfl (.last ⟨by decide, by decide, rfl⟩ rfl))
    obtain ⟨j, result, s', hrun, hreads, hkeys, hlog⟩ :=
      (paged_reads_stop_in_time (new lossyPager) ⟨0, {}, []⟩ 3).2 onePage request _ hrequest
        (by decide) rfl hserves hcounts (Nat.le_refl 3)
    have hone : j = 1 := by
      by_contra hne
      have hpos := hreads.stops.pos
      exact absurd (hreads.stops.goesOn 1 (Nat.le_refl 1) (by omega)).1 (by decide)
    subst hone
    exact ⟨result, s', hrun, hreads.items, by rw [hkeys, hreads.lastKey]; rfl, by rw [hlog]; rfl⟩

end Store

end ItemStore
