import ItemStore.Proofs.Call.Resuming
import ItemStore.Proofs.Store.Partitions

/-!
# Queries that are paged by hand

A query with a limit that is not to go on reads one page.  A caller who wants the rest repeats it
with the key that was reported as its start key, until none is: `queryByHand` is that loop.

The limit is what the provider is asked to look at, so a page never has more items than the limit,
nothing is cut off from it, and the key that the provider reports lies behind what is returned.

* `run_query_page`: such a query returns one page, as it is.
* `run_queryByHand`: the loop collects what matches, because every page leaves fewer items.
* `run_drainAfter_whole`: so does a query that is to go on and has no limit.
* `query_by_hand_reads_whole`: hence both read the same items in the same order.
-/

namespace ItemStore

/-! ## Queries and their places -/

namespace Call.Query

/-- The same query, of all items at once. -/
def unlimited (q : Query) : Query :=
  { q with paging := { q.paging with limit := none, recursive := true } }

variable (q : Query)

/-- Where a query begins plays no part in how it is compiled. -/
theorem compile_resumed (key : Item) : ({ q with startKey := key } : Query).compile =
    q.compile.map fun request => { request with startKey := key } := by
  have hbundle : ({ q with startKey := key } : Query).bundle = q.bundle := rfl
  unfold compile
  rw [hbundle]
  cases q.bundle with
  | error e => rfl
  | ok bundle =>
    simp only [bind, Except.bind]
    cases bundle.text? .keyCondition <;> rfl

end Call.Query

namespace Store

variable {σ : Type}

/-! ## The loop -/

/-- Repeat a query with the key that it reported as its start key, until it reports none; at most
`rounds` times, with at most `budget` pages each time.  Without results there were more. -/
def queryByHand (store : Store σ) (budget : Nat) :
    (rounds : Nat) → Call.Query → Run σ (Option (List PageResult))
  | 0, _ => return none
  | rounds + 1, q => do
    match ← store.query budget q with
    | none => return none
    | some result =>
      match result.lastKey with
      | none => return some [result]
      | some key =>
        return (← store.queryByHand budget rounds { q with startKey := key }).map (result :: ·)

section Pages

variable {store : Store σ} {parts : Partitions} {limit : Nat} {request : QueryRequest}

/-- A query with a limit asks its provider to look at so many items. -/
theorem limit_sized {options : PageOptions} (hlimit : options.limit = some limit)
    (hsize : options.pageSize = none) :
    (request.sized options).limit = some (Paging.clamp limit) := by
  simp [QueryRequest.sized, hlimit, hsize]

theorem toNat_clamp {n : Nat} (h : n < twoTo 31) : (Paging.clamp n).toInt.toNat = n := by
  have hmost : 2 ≤ twoTo 31 := by decide
  rw [Paging.clamp, toNat_toInt_ofNat (by omega)]
  omega

variable (hpages : store.provider.PagesQueries parts) (hanswering : store.AnsweringQueries)
include hpages hanswering

/-- A query with a limit that is not to go on returns a page as it is, and the key behind it. -/
theorem run_query_page {q : Call.Query} (hcompile : q.compile = .ok request)
    (hlimit : q.paging.limit = some limit) (hpos : 1 ≤ limit) (hmost : limit < twoTo 31)
    (hsize : q.paging.pageSize = none) (hrecursive : q.paging.recursive = false) {budget : Nat}
    (hbudget : 1 ≤ budget) (s : Session σ) :
    ∃ page n result s', parts.PageOf (request.sized q.paging) n page ∧
      s.run (store.query budget q) = (.ok (some result), s') ∧ result.items = page.items ∧
      result.lastKey = page.next? ∧ page.items.length ≤ limit := by
  obtain ⟨budget, rfl⟩ : ∃ n, budget = n + 1 := ⟨budget - 1, by omega⟩
  have hsized : (request.sized q.paging).limit = some (Paging.clamp limit) :=
    limit_sized hlimit hsize
  have hpositive : (request.sized q.paging).Positive := by
    intro most hask
    rw [hsized] at hask
    cases hask
    have hclamp := toNat_clamp hmost
    omega
  obtain ⟨page, n, s', hn, hrun⟩ := run_send_page hpages hanswering hpositive s
  have hshort : page.items.length ≤ limit := by
    have hlength := hn.length_le hsized
    rwa [toNat_clamp hmost] at hlength
  refine ⟨page, n, .ofPage (some limit) page, s', hn, ?_, ?_, ?_, hshort⟩
  · have hnonzero : q.paging.limit ≠ some 0 := by
      rw [hlimit]
      simp only [ne_eq, Option.some.injEq]
      omega
    rw [query, Session.run_lift_bind, hcompile]
    show s.run (store.runQuery q.paging (budget + 1) request) = _
    rw [store.runQuery_eq (budget + 1) hnonzero, hrecursive, hlimit]
    exact run_drainAfter_stop hrun rfl (.inr (.inr rfl))
  · rw [PageResult.items_ofPage]
    exact List.take_of_length_le hshort
  · exact PageResult.lastKey_ofPage _ page

/-- Paged by hand, a query brings what matches.  The induction is on the rounds, which outnumber the
items that are left. -/
theorem run_queryByHand {q : Call.Query} (hcompile : q.compile = .ok request)
    (hlimit : q.paging.limit = some limit) (hpos : 1 ≤ limit) (hmost : limit < twoTo 31)
    (hsize : q.paging.pageSize = none) (hrecursive : q.paging.recursive = false) {budget : Nat}
    (hbudget : 1 ≤ budget) {rounds : Nat} (hrounds : (parts.ahead request).length < rounds)
    (s : Session σ) :
    ∃ results s', s.run (store.queryByHand budget rounds q) = (.ok (some results), s') ∧
      (∀ result ∈ results, result.items.length ≤ limit) ∧
      results.flatMap PageResult.items = parts.matching request := by
  induction rounds generalizing q request s with
  | zero => exact absurd hrounds (Nat.not_lt_zero _)
  | succ rounds ih =>
    obtain ⟨page, n, result, s', hn, hrun, hitems, hkey, hshort⟩ :=
      run_query_page hpages hanswering hcompile hlimit hpos hmost hsize hrecursive hbudget s
    rw [← hitems] at hshort
    cases hnext : page.next? with
    | none =>
      rw [hnext] at hkey
      refine ⟨[result], s', ?_, by simpa using hshort, ?_⟩
      · rw [queryByHand, Session.run_bind, hrun]
        simp only [hkey]
        rfl
      · have hall : page.items = parts.matching request := hn.items_of_last hnext
        simp [hitems, hall]
    | some key =>
      rw [hnext] at hkey
      have hresumed : ({ q with startKey := key } : Call.Query).compile =
          .ok { request with startKey := key } := by
        rw [q.compile_resumed, hcompile]
        rfl
      have hfewer := hn.length_ahead_lt hnext
      obtain ⟨results, s'', hrun', hshorts, hall⟩ := ih hresumed hlimit hsize hrecursive
        (Nat.lt_of_lt_of_le hfewer (Nat.le_of_lt_succ hrounds)) s'
      refine ⟨result :: results, s'', ?_, List.forall_mem_cons.2 ⟨hshort, hshorts⟩, ?_⟩
      · rw [queryByHand, Session.run_bind, hrun]
        simp only [hkey, Session.run_bind, hrun']
        rfl
      · rw [List.flatMap_cons, hall, hitems]
        exact hn.items_of_more hnext

/-- A read that is to go on and has no limit brings what matches.  The induction is on the budget,
which outnumbers the items that are left. -/
theorem run_drainAfter_whole (hnone : request.limit = none) {budget : Nat}
    (hbudget : (parts.ahead request).length < budget) {collected : PageResult}
    (hkey : collected.lastKey = none) (s : Session σ) :
    ∃ result s', s.run (store.drainAfter .query none true budget request collected) =
        (.ok (some result), s') ∧
      result.items = collected.items ++ parts.matching request := by
  have hpositive : request.Positive := by
    intro most hask
    rw [hnone] at hask
    cases hask
  have henough (items : List Item) : ¬ Reached none items := by
    rintro ⟨n, hn, -⟩
    cases hn
  induction budget generalizing request collected s with
  | zero => exact absurd hbudget (Nat.not_lt_zero _)
  | succ budget ih =>
    obtain ⟨page, n, s', hn, hrun⟩ := run_send_page hpages hanswering hpositive s
    cases hnext : page.next? with
    | none =>
      refine ⟨_, s', run_drainAfter_stop hrun hkey (.inr (.inl hnext)), ?_⟩
      rw [PageResult.items_finish, ← hn.items_of_last hnext]
      rfl
    | some key =>
      have hfewer := hn.length_ahead_lt hnext
      have hkey' : (collected.absorb page).lastKey = none := hkey
      have hresumed : ({ request with startKey := key } : QueryRequest).limit = none := hnone
      obtain ⟨result, s'', hrun', hall⟩ := ih hresumed
        (Nat.lt_of_lt_of_le hfewer (Nat.le_of_lt_succ hbudget)) hkey' s' hpositive
      refine ⟨result, s'', ?_, ?_⟩
      · rw [run_drainAfter_go_on hrun (henough _) hnext]
        exact hrun'
      · rw [hall, ← hn.items_of_more hnext, ← List.append_assoc]
        rfl

/-- A query that is to go on and has no limit brings what matches. -/
theorem run_query_whole {q : Call.Query} (hcompile : q.compile = .ok request)
    (hsize : q.paging.pageSize = none) {budget : Nat}
    (hbudget : (parts.ahead request).length < budget) (s : Session σ) :
    ∃ result s', s.run (store.query budget q.unlimited) = (.ok (some result), s') ∧
      result.items = parts.matching request := by
  have hunsized : (request.sized q.unlimited.paging).limit = none := by
    simp [QueryRequest.sized, Call.Query.unlimited, hsize]
  have hkey : ({} : PageResult).lastKey = none := rfl
  obtain ⟨result, s', hrun, hitems⟩ :=
    run_drainAfter_whole hpages hanswering hunsized hbudget hkey s
  refine ⟨result, s', ?_, hitems⟩
  have hcompile' : q.unlimited.compile = .ok request := hcompile
  rw [query, Session.run_lift_bind, hcompile']
  show s.run (store.runQuery q.unlimited.paging budget request) = _
  rw [store.runQuery_eq budget (by simp [Call.Query.unlimited])]
  exact hrun

end Pages

/-- **Paging a query by hand is reading it whole**, against a provider that pages through what the
query can see and does not keep failing.

A query with a limit that a request can carry, with no size of pages and not to go on, is repeated
with the key that it reported until it reports none; more rounds than there are items to read are
enough.  No result has more items than the limit, and the items of all of them are those of the same
query, in the same order, when it is to go on and has no limit; and these are all items that match,
in the order in which the provider has them.  A query that makes no sense fails in both ways with
the same error. -/
theorem query_by_hand_reads_whole (store : Store σ) (parts : Partitions)
    (hpages : store.provider.PagesQueries parts) (hanswering : store.AnsweringQueries)
    (q : Call.Query) (limit : Nat) (hlimit : q.paging.limit = some limit) (hpos : 1 ≤ limit)
    (hmost : limit < twoTo 31) (hsize : q.paging.pageSize = none)
    (hrecursive : q.paging.recursive = false) :
    (∀ e, q.compile = .error e → ∀ budget rounds (s : Session σ),
      s.run (store.queryByHand budget (rounds + 1) q) = (.error e, s) ∧
        s.run (store.query budget q.unlimited) = (.error e, s)) ∧
    ∀ request, q.compile = .ok request → ∀ budget rounds budget' (s s' : Session σ), 1 ≤ budget →
      (parts.ahead request).length < rounds → (parts.ahead request).length < budget' →
      ∃ results whole s₁ s₁',
        s.run (store.queryByHand budget rounds q) = (.ok (some results), s₁) ∧
        s'.run (store.query budget' q.unlimited) = (.ok (some whole), s₁') ∧
        (∀ result ∈ results, result.items.length ≤ limit) ∧
        results.flatMap PageResult.items = whole.items ∧
        whole.items = parts.matching request := by
  constructor
  · intro e hcompile budget rounds s
    have hcompile' : q.unlimited.compile = .error e := hcompile
    have hrun : s.run (store.query budget q) = (.error e, s) := by
      rw [query, Session.run_lift_bind, hcompile]
    refine ⟨?_, by rw [query, Session.run_lift_bind, hcompile']⟩
    rw [queryByHand, Session.run_bind, hrun]
  · intro request hcompile budget rounds budget' s s' hbudget hrounds hbudget'
    obtain ⟨results, s₁, hrun, hshort, hall⟩ := run_queryByHand hpages hanswering hcompile hlimit
      hpos hmost hsize hrecursive hbudget hrounds s
    obtain ⟨whole, s₁', hrun', hitems⟩ :=
      run_query_whole hpages hanswering hcompile hsize hbudget' s'
    exact ⟨results, whole, s₁, s₁', hrun, hrun', hshort, hall.trans hitems.symm, hitems⟩

/-- Nine rows, of which the first two and the last two are hot. -/
def hotAndCold : List Item :=
  (List.range 9).map fun i =>
    .singleton (if i % 7 < 2 then "hot" else "cold") (.number (toString i))

/-- What a query with a filter returns of rows: those that are hot. -/
def onlyHot (whole : QueryRequest) (item : Item) : Option Item :=
  if whole.filter.isSome && !item.contains "hot" then none else some item

/-- A query for hot rows, four at a time. -/
def hotInFours : Call.Query where
  table := "t"
  keyCondition := .compare (.path "pk") .eq (.string "u")
  filters := [.present "hot"]
  paging := { limit := some 4, recursive := false }

/-- The provider looks at three rows at a time, so a page of the loop is empty. -/
theorem query_by_hand_reads_hot : ∃ results whole s₁ s₁',
    (⟨(), {}, []⟩ : Session Unit).run
      ((new (rowReader hotAndCold onlyHot 3)).queryByHand 1 10 hotInFours) =
        (.ok (some results), s₁) ∧
    (⟨(), {}, []⟩ : Session Unit).run
      ((new (rowReader hotAndCold onlyHot 3)).query 10 hotInFours.unlimited) =
        (.ok (some whole), s₁') ∧
    (∀ result ∈ results, result.items.length ≤ 4) ∧
    results.flatMap PageResult.items = whole.items ∧
    whole.items.length = 4 := by
  obtain ⟨request, hrequest⟩ := exists_eq_ok (x := hotInFours.compile) (by decide +kernel)
  have hhot : (hotInFours.compile.toOption.map fun request =>
      ((rowParts hotAndCold onlyHot).matching request).length) = some 4 := by decide +kernel
  rw [hrequest] at hhot
  have hahead : ((rowParts hotAndCold onlyHot).ahead request).length < 10 := by
    show (hotAndCold.drop _).length < 10
    rw [List.length_drop]
    exact Nat.lt_succ_of_le (Nat.sub_le 9 _)
  obtain ⟨results, whole, s₁, s₁', hrun, hrun', hshort, hsame, hwhole⟩ :=
    (query_by_hand_reads_whole (new (rowReader hotAndCold onlyHot 3)) _
      (rowReader_pagesQueries hotAndCold onlyHot 3 (by decide))
      (rowReader_answering hotAndCold onlyHot 3) hotInFours 4 rfl (by decide) (by decide) rfl rfl).2
      request hrequest 1 10 10 _ _ (Nat.le_refl 1) hahead hahead
  refine ⟨results, whole, s₁, s₁', hrun, hrun', hshort, hsame, ?_⟩
  rw [hwhole]
  exact Option.some.inj hhot

end Store

end ItemStore
