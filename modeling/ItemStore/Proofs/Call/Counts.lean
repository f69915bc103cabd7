import Mathlib.Algebra.BigOperators.Group.List.Basic
import ItemStore.Proofs.Call.Drains
import ItemStore.Proofs.Store.Slices

/-!
# What a limit bounds

The limit of a read is about items: a read has enough when it has collected so many, and what is
more is cut off.  The count that it reports is a number of its own.  The counts of the pages are
added up, and only where items are cut off it becomes the number of those that are left.  A page of
a read that asks for the number of items alone counts them and carries none, so such a read never
has enough.

* `PageResult.Tallies` is what a result has to do with the pages behind it.  Each step of a read
  keeps it: a page more, a lane that ends, a lane put behind the others, and the last cut.
* `run_drainAfter_tallies` and `run_drainSegments_tallies`: so a run keeps it, for the pages that
  its attempts brought.
* `Store.limited_read_counts_carried`: the items of a read keep to the limit, and its count exceeds
  it by no more than what pages count and do not carry.
* `Store.counting_read_exceeds_limit`: a read that carries nothing goes on past its limit.
-/

namespace ItemStore

/-! ## What pages count -/

/-- How many items a page counts; a negative number counts as none. -/
def Page.counted (p : Page) : Nat := p.count.toInt.toNat

/-- How many items a page counts beyond those that it carries. -/
def Page.uncarried (p : Page) : Nat := p.counted - p.items.length

/-- The page that an attempt brought, if it was one for a page. -/
def Attempt.page? : Attempt → Option Page
  | ⟨.query, _, .ok page⟩ => some page
  | ⟨.scan, _, .ok page⟩ => some page
  | _ => none

/-- What a read has collected from pages: its count is made of their counts, and with no item
carried nothing else happens to it. -/
structure PageResult.Tallies (pages : List Page) (r : PageResult) : Prop where
  /-- What counts is there as an item, or was not carried by its page. -/
  count_le : r.count ≤ r.items.length + (pages.map Page.uncarried).sum
  /-- Where no page carries an item, nothing is cut off and all counts are added up. -/
  bare : (∀ p ∈ pages, p.items = []) →
    r.items = [] ∧ r.count = (pages.map Page.counted).sum

namespace PageResult

/-! ## The steps of a read -/

section Steps

variable {pages : List Page} {r : PageResult} {limit : Option Nat} {recursive : Bool}

theorem tallies_empty : Tallies [] {} where
  count_le := Nat.zero_le _
  bare _ := ⟨rfl, rfl⟩

theorem Tallies.absorb (h : r.Tallies pages) (p : Page) :
    (r.absorb p).Tallies (pages ++ [p]) where
  count_le := by
    have hcount := h.count_le
    have hpage : p.counted ≤ p.items.length + p.uncarried := by
      unfold Page.uncarried
      omega
    have hsum : (r.absorb p).count = r.count + p.counted := rfl
    have hlength : (r.absorb p).items.length = r.items.length + p.items.length :=
      List.length_append
    rw [hsum, hlength, List.map_append, List.sum_append, List.map_singleton, List.sum_singleton]
    omega
  bare hbare := by
    obtain ⟨hpages, hp⟩ := List.forall_mem_append.1 hbare
    obtain ⟨hitems, hcount⟩ := h.bare hpages
    refine ⟨List.append_eq_nil_iff.2 ⟨hitems, hp p (List.mem_singleton_self p)⟩, ?_⟩
    rw [List.map_append, List.sum_append, ← hcount]
    rfl

/-- A cut leaves the items of which there are enough, and they are what counts then. -/
theorem Tallies.cut_to (h : r.Tallies pages) {cut : PageResult} {n : Nat} (hpos : n ≠ 0)
    (hn : n ≤ r.items.length) (hitems : cut.items = r.items.take n) (hcount : cut.count = n) :
    cut.Tallies pages where
  count_le := by
    have hlength : cut.items.length = n := by
      rw [hitems, List.length_take_of_le hn]
    omega
  bare hbare := by
    -- something is there to be cut, so a page carries something
    rw [(h.bare hbare).1] at hn
    exact absurd (Nat.le_zero.1 hn) hpos

theorem Tallies.finish (h : r.Tallies pages) (hlimit : limit ≠ some 0) (next : Option Item) :
    (r.finish limit recursive next).Tallies pages := by
  by_cases henough : Reached limit r.items
  · obtain ⟨n, rfl, hn⟩ := henough
    refine h.cut_to (fun hzero => hlimit (congrArg some hzero)) hn ?_ ?_
    · rw [items_finish, upTo]
    · exact count_finish_of_reached rfl hn
  · have hitems : (r.finish limit recursive next).items = r.items := by
      rw [items_finish]
      exact upTo_eq_self henough
    have hcount : (r.finish limit recursive next).count = r.count :=
      count_finish_of_not_reached henough
    refine ⟨?_, ?_⟩
    · rw [hitems, hcount]
      exact h.count_le
    · rw [hitems, hcount]
      exact h.bare

theorem Tallies.absorbSegment {pages' : List Page} {segment : PageResult} (h : r.Tallies pages)
    (h' : segment.Tallies pages') (recursive : Bool) :
    (r.absorbSegment segment recursive).Tallies (pages ++ pages') where
  count_le := by
    have hcount := h.count_le
    have hcount' := h'.count_le
    have hsum : (r.absorbSegment segment recursive).count = r.count + segment.count := rfl
    have hlength : (r.absorbSegment segment recursive).items.length =
        r.items.length + segment.items.length := List.length_append
    rw [hsum, hlength, List.map_append, List.sum_append]
    omega
  bare hbare := by
    obtain ⟨hpages, hpages'⟩ := List.forall_mem_append.1 hbare
    obtain ⟨hitems, hcount⟩ := h.bare hpages
    obtain ⟨hitems', hcount'⟩ := h'.bare hpages'
    refine ⟨List.append_eq_nil_iff.2 ⟨hitems, hitems'⟩, ?_⟩
    rw [List.map_append, List.sum_append, ← hcount, ← hcount']
    rfl

theorem Tallies.cut (h : r.Tallies pages) (hlimit : limit ≠ some 0) :
    (r.cut limit).Tallies pages := by
  by_cases hmore : ∃ n, limit = some n ∧ n < r.items.length
  · obtain ⟨n, rfl, hn⟩ := hmore
    refine h.cut_to (fun hzero => hlimit (congrArg some hzero)) (Nat.le_of_lt hn) ?_ ?_
    · rw [items_cut, upTo]
    · exact count_cut_of_lt rfl hn
  · rwa [cut_eq_self fun n hn => Nat.le_of_not_lt fun hlt => hmore ⟨n, hn, hlt⟩]

end Steps

/-! ## Limits -/

/-- What the limit of a read has to do with its result, by the pages that it read. -/
structure KeepsTo (limit : Nat) (pages : List Page) (r : PageResult) : Prop where
  /-- There are no more items than are wanted. -/
  items : r.items.length ≤ limit
  /-- The count is the limit at most, but for what pages count and do not carry. -/
  count : r.count ≤ limit + (pages.map Page.uncarried).sum
  /-- Where every page carries what it counts, the count keeps to the limit. -/
  carried : (∀ p ∈ pages, p.count.toInt ≤ p.items.length) → r.count ≤ limit
  /-- Where no page carries an item, all that the pages count is reported, whatever the limit. -/
  bare : (∀ p ∈ pages, p.items = []) → r.items = [] ∧ r.count = (pages.map Page.counted).sum

theorem Tallies.keepsTo {pages : List Page} {r : PageResult} (h : r.Tallies pages)
    {limit : Nat} (hitems : r.items.length ≤ limit) : KeepsTo limit pages r where
  items := hitems
  count := h.count_le.trans (Nat.add_le_add_right hitems _)
  carried hcarried := by
    have hnone : (pages.map Page.uncarried).sum = 0 := by
      refine List.sum_eq_zero fun n hn => ?_
      obtain ⟨p, hp, rfl⟩ := List.mem_map.1 hn
      have hle := hcarried p hp
      unfold Page.uncarried Page.counted
      omega
    have hcount := h.count_le
    omega
  bare := h.bare

end PageResult

namespace Store

variable {σ : Type} {op : Operation}

/-! ## Runs -/

/-- A kind of pages whose responses a log shows as pages. -/
def Logged (kind : PageKind op) : Prop :=
  ∀ request response, Attempt.page? { operation := op, request, outcome := .ok response } =
    some (kind.page response)

theorem logged_query : Logged PageKind.query := fun _ _ => rfl

theorem logged_scan : Logged PageKind.scan := fun _ _ => rfl

/-- The attempts of a submission that succeeds bring one page. -/
theorem pages_of_answered {kind : PageKind op} (hkind : Logged kind) {x : Submission op}
    {p : op.Response} (h : x.outcome = .ok p) :
    x.attempts.filterMap Attempt.page? = [kind.page p] := by
  have hfailed : ∀ e, Attempt.page? (x.attempt (.error e)) = none := by
    intro e
    cases op <;> rfl
  have hlast : Attempt.page? (x.attempt (.ok p)) = some (kind.page p) := hkind x.request p
  simp [Submission.attempts, List.filterMap_append, List.filterMap_map, hfailed, h,
    hlast]

/-- A read keeps the tally of what it collects, with the pages that its attempts bring, and no more
items than are wanted.  The induction is on the budget. -/
theorem run_drainAfter_tallies {store : Store σ} {kind : PageKind op} (hkind : Logged kind)
    {limit : Option Nat} (hlimit : limit ≠ some 0) {recursive : Bool} {budget : Nat}
    {request : op.Request} {collected r : PageResult} {s s' : Session σ}
    (h : s.run (store.drainAfter kind limit recursive budget request collected) =
      (.ok (some r), s'))
    {pages : List Page} (hcollected : collected.Tallies pages) (hkey : collected.lastKey = none) :
    ∃ made, s'.log = s.log ++ made ∧ r.Tallies (pages ++ made.filterMap Attempt.page?) ∧
      ∀ n, limit = some n → r.items.length ≤ n := by
  induction budget generalizing request collected s pages with
  | zero => cases h
  | succ budget ih =>
    obtain ⟨x, t, rfl, -, hrun, hlog⟩ := store.run_send request s
    cases hx : x.outcome with
    | error e =>
      rw [hx] at hrun
      rw [run_drainAfter_failed hrun] at h
      cases h
    | ok p =>
      rw [hx] at hrun
      have hpage := pages_of_answered hkind hx
      have htally := hcollected.absorb (kind.page p)
      by_cases hstop : Reached limit (collected.absorb (kind.page p)).items ∨
          (kind.page p).next? = none ∨ recursive = false
      · rw [run_drainAfter_stop hrun hkey hstop] at h
        cases h
        refine ⟨x.attempts, hlog, ?_, ?_⟩
        · rw [hpage]
          exact htally.finish hlimit _
        · rintro n rfl
          rw [PageResult.items_finish]
          exact List.length_take_le ..
      · obtain ⟨henough, hrest⟩ := not_or.1 hstop
        obtain ⟨hnext, hrecursive⟩ := not_or.1 hrest
        obtain ⟨key, hnext⟩ := Option.ne_none_iff_exists'.1 hnext
        rw [Bool.not_eq_false] at hrecursive
        subst hrecursive
        rw [run_drainAfter_go_on hrun henough hnext] at h
        obtain ⟨made, hmade, hr, hfew⟩ := ih h htally hkey
        refine ⟨x.attempts ++ made, ?_, ?_, hfew⟩
        · rw [hmade, hlog, List.append_assoc]
        · rw [List.filterMap_append, hpage, ← List.append_assoc]
          exact hr

/-- A scan keeps the tally over its segments.  The induction is on the segments. -/
theorem run_drainSegments_tallies {store : Store σ} {share : Option Nat} (hshare : share ≠ some 0)
    {recursive : Bool} {budget : Nat} {requests : List ScanRequest} {collected r : PageResult}
    {s s' : Session σ}
    (h : s.run (store.drainSegments share recursive budget collected requests) =
      (.ok (some r), s'))
    {pages : List Page} (hcollected : collected.Tallies pages) :
    ∃ made, s'.log = s.log ++ made ∧ r.Tallies (pages ++ made.filterMap Attempt.page?) := by
  induction requests generalizing collected s pages with
  | nil =>
    cases h
    exact ⟨[], by simp, by simpa using hcollected⟩
  | cons request requests ih =>
    rw [drainSegments, Session.run_bind] at h
    rcases hrun : s.run (store.drain .scan share recursive budget request) with
      ⟨_ | _ | segment, t⟩
    · rw [hrun] at h
      cases h
    · rw [hrun] at h
      cases h
    · rw [hrun] at h
      obtain ⟨first, hfirst, hsegment, -⟩ :=
        run_drainAfter_tallies logged_scan hshare hrun PageResult.tallies_empty rfl
      rw [List.nil_append] at hsegment
      obtain ⟨made, hmade, hr⟩ := ih h (hcollected.absorbSegment hsegment recursive)
      refine ⟨first ++ made, ?_, ?_⟩
      · rw [hmade, hfirst, List.append_assoc]
      · rw [List.filterMap_append, ← List.append_assoc]
        exact hr

/-! ## Queries and scans -/

theorem ceilDiv_ne_zero {n d : Nat} (hn : 1 ≤ n) (hd : 1 ≤ d) : ceilDiv n d ≠ 0 := by
  intro hzero
  have hle := le_ceilDiv_mul n hd
  rw [hzero] at hle
  omega

theorem runQuery_keepsTo {store : Store σ} {options : PageOptions} {limit budget : Nat}
    {request : QueryRequest} {s s' : Session σ} {r : PageResult} (hpos : 1 ≤ limit)
    (hlimit : options.limit = some limit)
    (h : s.run (store.runQuery options budget request) = (.ok (some r), s')) :
    ∃ made, s'.log = s.log ++ made ∧ r.KeepsTo limit (made.filterMap Attempt.page?) := by
  have hsome : options.limit ≠ some 0 := by
    rw [hlimit]
    intro hzero
    exact absurd (Option.some.inj hzero) (by omega)
  rw [store.runQuery_eq budget hsome] at h
  obtain ⟨made, hmade, hr, hfew⟩ :=
    run_drainAfter_tallies logged_query hsome h PageResult.tallies_empty rfl
  exact ⟨made, hmade, hr.keepsTo (hfew limit hlimit)⟩

theorem runScan_keepsTo {store : Store σ} {options : PageOptions} {limit requested budget : Nat}
    {request : ScanRequest} {s s' : Session σ} {r : PageResult} (hpos : 1 ≤ limit)
    (hlimit : options.limit = some limit)
    (h : s.run (store.runScan options requested budget request) = (.ok (some r), s')) :
    ∃ made, s'.log = s.log ++ made ∧ r.KeepsTo limit (made.filterMap Attempt.page?) := by
  have hsome : options.limit ≠ some 0 := by
    rw [hlimit]
    intro hzero
    exact absurd (Option.some.inj hzero) (by omega)
  generalize hsegments : Paging.segmentCount requested options.limit = segments
  by_cases hone : segments = 1
  · subst hone
    rw [store.runScan_eq_single budget hsome hsegments, Session.run_bind] at h
    rcases hrun : s.run (store.drain .scan options.limit options.recursive budget
      (request.sized options 1)) with ⟨_ | _ | lane, t⟩
    · rw [hrun] at h
      cases h
    · rw [hrun] at h
      cases h
    · rw [hrun] at h
      obtain ⟨made, hmade, hr, hfew⟩ :=
        run_drainAfter_tallies logged_scan hsome hrun PageResult.tallies_empty rfl
      have hlane := hr.keepsTo (hfew limit hlimit)
      cases h
      refine ⟨made, hmade, ?_⟩
      -- reporting the key of the only segment changes neither items nor count
      split
      · exact hlane
      · exact ⟨hlane.items, hlane.count, hlane.carried, hlane.bare⟩
  · have hpart : (options.limit.map fun limit => ceilDiv limit segments) ≠ some 0 := by
      rw [hlimit]
      intro hzero
      exact ceilDiv_ne_zero hpos (hsegments ▸ segmentCount_pos _ _) (Option.some.inj hzero)
    rw [store.runScan_eq_many budget hsome hsegments hone, Session.run_bind] at h
    rcases hrun : s.run (store.drainSegments
      (options.limit.map fun limit => ceilDiv limit segments) options.recursive budget {}
      (segmentRequests (request.sized options segments) (min segments (twoTo 31 - 1)))) with
      ⟨_ | _ | merged, t⟩
    · rw [hrun] at h
      cases h
    · rw [hrun] at h
      cases h
    · rw [hrun] at h
      obtain ⟨made, hmade, hr⟩ := run_drainSegments_tallies hpart hrun PageResult.tallies_empty
      cases h
      refine ⟨made, hmade, (hr.cut hsome).keepsTo ?_⟩
      rw [PageResult.items_cut, hlimit]
      exact List.length_take_le ..

/-- **The limit of a read bounds its items, and its count as far as pages carry what they count.**

Take a query or a scan with a limit of at least one, with any page options, in any number of
segments and against any provider.  If it comes to a result, then with the pages that its attempts
brought: there are no more items than the limit, and the count exceeds the limit by no more than
what the pages count and do not carry.  So it keeps to the limit where every page carries what it
counts.  But where pages only count, it is all that they count, whatever the limit. -/
theorem limited_read_counts_carried (store : Store σ) (budget limit : Nat) (hpos : 1 ≤ limit)
    (s s' : Session σ) (r : PageResult) :
    (∀ q : Call.Query, q.paging.limit = some limit →
      s.run (store.query budget q) = (.ok (some r), s') →
      ∃ made, s'.log = s.log ++ made ∧ r.KeepsTo limit (made.filterMap Attempt.page?)) ∧
    (∀ c : Call.Scan, c.paging.limit = some limit →
      s.run (store.scan budget c) = (.ok (some r), s') →
      ∃ made, s'.log = s.log ++ made ∧ r.KeepsTo limit (made.filterMap Attempt.page?)) := by
  constructor
  · intro q hlimit h
    rw [query, Session.run_lift_bind] at h
    cases hcompile : q.compile with
    | error e =>
      rw [hcompile] at h
      cases h
    | ok request =>
      rw [hcompile] at h
      exact runQuery_keepsTo hpos hlimit h
  · intro c hlimit h
    rw [scan, Session.run_lift_bind] at h
    cases hcompile : c.compile with
    | error e =>
      rw [hcompile] at h
      cases h
    | ok request =>
      rw [hcompile] at h
      exact runScan_keepsTo hpos hlimit h

/-- A provider whose pages only count: two items, of which there are more, and then one. -/
def countingPager : Provider Nat
  | .query, _, n => (answer n, n + 1)
  | .scan, _, n => (answer n, n + 1)
  | _, _, n => ({ outcome := .error (.transport "off") }, n)
where
  /-- The answer in a state. -/
  answer (n : Nat) : Reply Page :=
    { outcome := .ok (if n = 0 then { count := 2, scannedCount := 2, lastKey := rowKey 2 }
        else { count := 1, scannedCount := 1 }) }

/-- A query for the number of items, with a limit of two. -/
def countOfKey : Call.Query where
  table := "users"
  keyCondition := .compare (.path "id") .eq (.string "u")
  select := some .count
  paging := { limit := some 2 }

/-- A scan of two segments for six items in pages of four, one page of each segment. -/
def firstOfTwo : Call.Scan where
  table := "users"
  paging := { limit := some 6, pageSize := some 4, recursive := false }
  segments := some 2

/-- A provider that has the rows for the first segment, and a mere count for the second one. -/
def halfCountingPager : Provider Unit :=
  scanPager fun request =>
    if request.segment = some 1 then { count := 5, scannedCount := 5 } else rowPage nineRows request

theorem limited_read_counts_carried_half :
    (∃ r s', (⟨0, {}, []⟩ : Session Nat).run ((new countingPager).query 2 countOfKey) =
        (.ok (some r), s') ∧ r.KeepsTo 2 (s'.log.filterMap Attempt.page?)) ∧
    ∃ r s', (⟨(), {}, []⟩ : Session Unit).run ((new halfCountingPager).scan 1 firstOfTwo) =
        (.ok (some r), s') ∧ r.items.length = 3 ∧ r.count = 8 ∧
      r.KeepsTo 6 (s'.log.filterMap Attempt.page?) := by
  constructor
  · refine ⟨_, _, rfl, ?_⟩
    obtain ⟨made, hlog, hkeeps⟩ := (limited_read_counts_carried (new countingPager) 2 2 (by decide)
      ⟨0, {}, []⟩ _ _).1 countOfKey rfl rfl
    rw [hlog]
    exact hkeeps
  · refine ⟨_, _, rfl, by decide +kernel, by decide +kernel, ?_⟩
    obtain ⟨made, hlog, hkeeps⟩ := (limited_read_counts_carried (new halfCountingPager) 1 6
      (by decide) ⟨(), {}, []⟩ _ _).2 firstOfTwo rfl rfl
    rw [hlog]
    exact hkeeps

/-- A query for the number of items reads on behind a page that counts as many as are wanted, and
reports more than its limit. -/
theorem counting_read_exceeds_limit :
    ∃ r s', (⟨0, {}, []⟩ : Session Nat).run ((new countingPager).query 2 countOfKey) =
        (.ok (some r), s') ∧
      countOfKey.paging.limit = some 2 ∧
      (∀ p ∈ s'.log.filterMap Attempt.page?, 0 ≤ p.count.toInt) ∧
      s'.log.length = 2 ∧ r.items = [] ∧ r.count = 3 ∧ ¬ r.count ≤ 2 := by
  refine ⟨_, _, rfl, rfl, ?_, ?_, ?_, ?_, ?_⟩
  all_goals decide +kernel

end Store

end ItemStore
