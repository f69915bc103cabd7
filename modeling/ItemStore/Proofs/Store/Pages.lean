import Mathlib.Algebra.Order.Ring.Int
import ItemStore.Proofs.Store.Attempts
import ItemStore.Store.Pages

/-!
# Pages until there is enough

A paged read sends one request after another and stops at a page behind which it has enough, at the
last page, or at once if it is not to go on.  What comes for one request is a `Delivery`: errors
that may pass and then a response.  `Serves` says which deliveries a provider has for a read, each
for the request that goes on behind the page before it, `ServesEnough` the same of as many of them
as are needed, and `submissionsOf` lists these requests.

* `run_drainAfter_stop` and `run_drainAfter_go_on` are the two ways in which the loop treats a page.
* `run_drainAfter_enough` finds the page at which the loop stops, and what has been collected then.
-/

namespace ItemStore

/-! ## When there is enough -/

/-- There are as many items as are wanted. -/
def Reached (limit : Option Nat) (items : List Item) : Prop :=
  ∃ n, limit = some n ∧ n ≤ items.length

/-- The first items, no more than are wanted. -/
def upTo (limit : Option Nat) (items : List Item) : List Item :=
  match limit with
  | some n => items.take n
  | none => items

/-- Where there is not enough, nothing is cut off. -/
theorem upTo_eq_self {limit : Option Nat} {items : List Item} (h : ¬ Reached limit items) :
    upTo limit items = items := by
  cases limit with
  | none => rfl
  | some n =>
    refine List.take_of_length_le ?_
    by_contra hlt
    exact h ⟨n, rfl, by omega⟩

/-- A read that has some items already goes through the first `j` of the pages that are left: one
page at least, and another one as long as it is to go on, has not enough and there are more. -/
structure StopsAt (limit : Option Nat) (recursive : Bool) (before : List Item) (pages : List Page)
    (j : Nat) : Prop where
  /-- A page is read in any case. -/
  pos : 1 ≤ j
  /-- There are no pages behind the last one. -/
  le : j ≤ pages.length
  /-- Another page is read only if the read is to go on and has not enough. -/
  goesOn : ∀ i, 1 ≤ i → i < j →
    recursive = true ∧ ¬ Reached limit (before ++ (pages.take i).flatMap Page.items)
  /-- A read that is to go on stops before the last page only if it has enough. -/
  stops : recursive = true → j < pages.length →
    Reached limit (before ++ (pages.take j).flatMap Page.items)

section StopsAt

variable {limit : Option Nat} {recursive : Bool} {before : List Item} {p : Page}
  {pages : List Page} {j : Nat}

/-- The first page is the last one read if there is enough, if there is no more, or if no more is
wanted. -/
theorem StopsAt.first (h : Reached limit (before ++ p.items) ∨ pages = [] ∨ recursive = false) :
    StopsAt limit recursive before (p :: pages) 1 where
  pos := Nat.le_refl 1
  le := Nat.succ_le_succ (Nat.zero_le _)
  goesOn := by
    intro i hi hlt
    omega
  stops := by
    intro hrecursive hlt
    rcases h with h | rfl | h
    · simpa using h
    · exact absurd hlt (Nat.lt_irrefl 1)
    · rw [hrecursive] at h
      cases h

/-- If there is not enough with the first page, reading goes on behind it. -/
theorem StopsAt.next (hp : ¬ Reached limit (before ++ p.items))
    (h : StopsAt limit true (before ++ p.items) pages j) :
    StopsAt limit true before (p :: pages) (j + 1) where
  pos := Nat.succ_pos j
  le := Nat.succ_le_succ h.le
  goesOn := by
    intro i hi hlt
    obtain ⟨i, rfl⟩ : ∃ n, i = n + 1 := ⟨i - 1, by omega⟩
    refine ⟨rfl, ?_⟩
    cases i with
    | zero => simpa using hp
    | succ i =>
      have hgoes := (h.goesOn (i + 1) (Nat.succ_pos i) (Nat.lt_of_succ_lt_succ hlt)).2
      simpa using hgoes
  stops := by
    intro _ hlt
    have hstops := h.stops rfl (Nat.lt_of_succ_lt_succ hlt)
    simpa using hstops

end StopsAt

/-! ## What has been collected -/

theorem lastKey_of_next? {p : Page} {key : Item} (h : p.next? = some key) : p.lastKey = key := by
  unfold Page.next? at h
  split at h
  · cases h
  · exact Option.some.inj h

namespace PageResult

variable (r : PageResult) (pages : List Page)

/-- A page adds its items behind what has been collected, and its counts to those before. -/
theorem items_foldl_absorb :
    (pages.foldl absorb r).items = r.items ++ pages.flatMap Page.items := by
  induction pages generalizing r with
  | nil => simp
  | cons p pages ih => simp [ih, absorb]

/-- The count is the sum of those of the pages. -/
theorem count_foldl_absorb : (pages.foldl absorb r).count =
    r.count + (pages.map fun p => p.count.toInt.toNat).sum := by
  induction pages generalizing r with
  | nil => simp
  | cons p pages ih => simp [ih, absorb, Nat.add_assoc]

/-- What was looked at is added up over the pages. -/
theorem scannedCount_foldl_absorb : (pages.foldl absorb r).scannedCount =
    r.scannedCount + (pages.map fun p => p.scannedCount.toInt.toNat).sum := by
  induction pages generalizing r with
  | nil => simp
  | cons p pages ih => simp [ih, absorb, Nat.add_assoc]

/-- Taking up a page says nothing of where to go on. -/
theorem lastKey_foldl_absorb : (pages.foldl absorb r).lastKey = r.lastKey := by
  induction pages generalizing r with
  | nil => rfl
  | cons p pages ih => rw [List.foldl_cons, ih]; rfl

theorem segmentKeys_foldl_absorb : (pages.foldl absorb r).segmentKeys = r.segmentKeys := by
  induction pages generalizing r with
  | nil => rfl
  | cons p pages ih => rw [List.foldl_cons, ih]; rfl

/-- What is returned when a read stops behind a page: no more items than are wanted and, unless the
read was to go on, the key behind the page. -/
def finish (limit : Option Nat) (recursive : Bool) (next : Option Item) : PageResult :=
  let cut := match limit.filter (· ≤ r.items.length) with
    | some n => r.truncate n
    | none => r
  if recursive then cut else { cut with lastKey := next }

variable {r} {limit : Option Nat} {recursive : Bool} {next : Option Item}

/-- A limit that is reached is where the items are cut. -/
theorem filter_of_reached {n : Nat} (h : limit = some n) (hn : n ≤ r.items.length) :
    limit.filter (· ≤ r.items.length) = some n := by
  simp [h, hn]

/-- A limit that is not reached cuts nothing off. -/
theorem filter_of_not_reached (h : ¬ Reached limit r.items) :
    limit.filter (· ≤ r.items.length) = none := by
  rw [Option.filter_eq_none_iff]
  intro n hn hle
  exact h ⟨n, hn, by simpa using hle⟩

/-- The first items are returned, up to the limit. -/
theorem items_finish : (r.finish limit recursive next).items = upTo limit r.items := by
  by_cases h : Reached limit r.items
  · obtain ⟨n, rfl, hn⟩ := h
    cases recursive <;> simp [finish, filter_of_reached rfl hn, truncate, upTo]
  · cases recursive <;> simp [finish, filter_of_not_reached h, upTo_eq_self h]

/-- At the limit, the limit is the count. -/
theorem count_finish_of_reached {n : Nat} (h : limit = some n) (hn : n ≤ r.items.length) :
    (r.finish limit recursive next).count = n := by
  cases recursive <;> simp [finish, filter_of_reached h hn, truncate, hn]

/-- Below the limit, the pages say what the count is. -/
theorem count_finish_of_not_reached (h : ¬ Reached limit r.items) :
    (r.finish limit recursive next).count = r.count := by
  cases recursive <;> simp [finish, filter_of_not_reached h]

theorem scannedCount_finish : (r.finish limit recursive next).scannedCount = r.scannedCount := by
  unfold finish
  cases limit.filter (· ≤ r.items.length) <;> cases recursive <;> rfl

theorem segmentKeys_finish : (r.finish limit recursive next).segmentKeys = r.segmentKeys := by
  unfold finish
  cases limit.filter (· ≤ r.items.length) <;> cases recursive <;> rfl

/-- A recursive read keeps the key that it has; any other one has the key behind its last page. -/
theorem lastKey_finish :
    (r.finish limit recursive next).lastKey = if recursive then r.lastKey else next := by
  unfold finish
  cases limit.filter (· ≤ r.items.length) <;> cases recursive <;> rfl

/-- What is returned of the results of several segments together. -/
def cut (limit : Option Nat) (r : PageResult) : PageResult :=
  match limit.filter (· < r.items.length) with
  | some n => r.truncate n
  | none => r

/-- The items of all segments together are cut to the limit. -/
theorem items_cut : (r.cut limit).items = upTo limit r.items := by
  cases limit with
  | none => rfl
  | some n =>
    by_cases h : n < r.items.length
    · have hfilter : (some n).filter (· < r.items.length) = some n := by simp [h]
      rw [cut, hfilter]
      rfl
    · have hfilter : (some n).filter (· < r.items.length) = none := by simpa using h
      rw [cut, hfilter]
      exact (List.take_of_length_le (Nat.le_of_not_lt h)).symm

theorem segmentKeys_cut : (r.cut limit).segmentKeys = r.segmentKeys := by
  unfold cut
  cases limit.filter (· < r.items.length) <;> rfl

theorem lastKey_cut : (r.cut limit).lastKey = r.lastKey := by
  unfold cut
  cases limit.filter (· < r.items.length) <;> rfl

theorem scannedCount_cut : (r.cut limit).scannedCount = r.scannedCount := by
  unfold cut
  cases limit.filter (· < r.items.length) <;> rfl

/-- If items are cut off, the limit is the count. -/
theorem count_cut_of_lt {n : Nat} (h : limit = some n) (hn : n < r.items.length) :
    (r.cut limit).count = n := by
  have hfilter : limit.filter (· < r.items.length) = some n := by simp [h, hn]
  rw [cut, hfilter]
  exact List.length_take_of_le (Nat.le_of_lt hn)

/-- There is nothing to cut off up to the limit. -/
theorem cut_eq_self (h : ∀ n, limit = some n → r.items.length ≤ n) : r.cut limit = r := by
  have hfilter : limit.filter (· < r.items.length) = none := by
    rw [Option.filter_eq_none_iff]
    intro n hn hlt
    exact absurd (of_decide_eq_true hlt) (Nat.not_lt.2 (h n hn))
  rw [cut, hfilter]

theorem withLastKey_eq_self (h : r.lastKey = next) :
    ({ r with lastKey := next } : PageResult) = r := by
  subst h
  rfl

end PageResult

/-! ## Deliveries -/

/-- What comes for a request in the end. -/
structure Delivery (op : Operation) where
  /-- What the attempts came to that failed. -/
  failures : List StoreError
  /-- What the last attempt came to. -/
  response : op.Response

namespace Delivery

variable {op : Operation}

/-- How many attempts a delivery takes. -/
def attempts (d : Delivery op) : Nat := d.failures.length + 1

/-- The submission of a request that is answered by a delivery. -/
def submission (d : Delivery op) (request : op.Request) : Submission op where
  request := request
  failures := d.failures
  outcome := .ok d.response

end Delivery

namespace Store

variable {σ : Type} {op : Operation}

/-- In some state a provider has a delivery for a request: its answers come to errors that may pass,
not too many of them, and then to a response. -/
structure Delivers (store : Store σ) (request : op.Request) (state : σ) (d : Delivery op) :
    Prop where
  /-- The errors may pass. -/
  retryable : ∀ e ∈ d.failures, e.isRetryable = true
  /-- The attempts are not used up before the response comes. -/
  within : d.attempts ≤ max 1 store.config.retry.maxAttempts
  /-- The errors come one by one, and then the response. -/
  come : store.outcomes request state d.attempts = d.failures.map .error ++ [.ok d.response]

section Sending

variable {store : Store σ} {request : op.Request} {s : Session σ} {d : Delivery op}

/-- The last attempt for a page is answered with it. -/
theorem Delivers.outcome_response (h : store.Delivers request s.state d) :
    store.outcome request s.state d.attempts = .ok d.response := by
  have hcome := h.come
  rw [Delivery.attempts, outcomes_succ] at hcome
  exact List.singleton_inj.1 (List.append_inj_right' hcome rfl)

/-- Every attempt before the last one fails with something that may pass. -/
theorem Delivers.passing (h : store.Delivers request s.state d) {i : Nat} (hi : 1 ≤ i)
    (hlt : i < d.attempts) : Passing (store.outcome request s.state i) := by
  have hcome := h.come
  rw [Delivery.attempts, outcomes_succ] at hcome
  have hfailures : store.outcomes request s.state d.failures.length = d.failures.map .error :=
    List.append_inj_left' hcome rfl
  have hmem : store.outcome request s.state i ∈ d.failures.map .error := by
    rw [← hfailures, outcomes]
    refine List.mem_map.2 ⟨i, List.mem_range'_1.2 ⟨hi, ?_⟩, rfl⟩
    unfold Delivery.attempts at hlt
    omega
  obtain ⟨e, he, houtcome⟩ := List.mem_map.1 hmem
  exact ⟨e, houtcome.symm, h.retryable e he⟩

/-- Sending a request for which there is a delivery takes the attempts of the delivery. -/
theorem Delivers.run_send (h : store.Delivers request s.state d) :
    s.run (store.send op request) =
      (.ok d.response, store.afterAttempts request s d.attempts) := by
  obtain ⟨j, hj, hle, hbefore, hstop, hrun⟩ :=
    store.run_attempts_until request s 0 store.config.retry.pauses
  have hwithin := h.within
  have hresponse : ¬ Passing (store.outcome request s.state d.attempts) := by
    rintro ⟨e, he, -⟩
    rw [h.outcome_response] at he
    cases he
  have heq : j = d.attempts := by
    rcases Nat.lt_trichotomy j d.attempts with hlt | heq | hgt
    · have hlast : j ≤ 0 + store.config.retry.pauses := by
        unfold RetryPolicy.pauses
        omega
      exact absurd (h.passing hj hlt) (hstop hlast)
    · exact heq
    · exact absurd (hbefore _ (Nat.succ_pos _) hgt) hresponse
  rw [afterAttempts_zero, heq, h.outcome_response] at hrun
  have hexecute : s.run (store.execute op request) =
      (.ok d.response, store.afterAttempts request s d.attempts) := hrun
  rw [send, Session.run_mapError, hexecute]
  rfl

/-- Sending a request fails, where there is no delivery for it, or brings what the provider
answers. -/
theorem run_send_answered (store : Store σ) (request : op.Request) (s : Session σ) :
    ((¬ ∃ d, store.Delivers request s.state d) ∧
      ∃ e s', s.run (store.send op request) = (.error e, s')) ∨
    ∃ p s', s.run (store.send op request) = (.ok p, s') ∧
      ∃ state, (store.provider op request state).1.outcome = .ok p := by
  obtain ⟨x, s', rfl, hsent, hrun, -⟩ := store.run_send request s
  cases houtcome : x.outcome with
  | error e =>
    rw [houtcome] at hrun
    refine .inl ⟨?_, _, s', hrun⟩
    -- with a delivery for the request, sending it would have come to a response
    rintro ⟨d, hd⟩
    rw [hd.run_send] at hrun
    cases hrun
  | ok p =>
    rw [houtcome] at hrun
    exact .inr ⟨p, s', hrun, hsent.answered p houtcome⟩

/-- What is logged for a page is its attempts. -/
theorem Delivers.log (h : store.Delivers request s.state d) :
    (store.afterAttempts request s d.attempts).log = s.log ++ (d.submission request).attempts := by
  show s.log ++ (store.outcomes request s.state d.attempts).map _ = _
  rw [h.come, List.map_append, List.map_map]
  rfl

end Sending

/-! ## The loop over pages -/

section Loop

variable {store : Store σ} {kind : PageKind op} {limit : Option Nat} {recursive : Bool}
  {budget : Nat} {request : op.Request} {collected : PageResult} {p : op.Response}
  {s s' : Session σ}

/-- The first request that fails ends the loop with its error. -/
theorem run_drainAfter_failed {e : StoreError}
    (h : s.run (store.send op request) = (.error e, s')) :
    s.run (store.drainAfter kind limit recursive (budget + 1) request collected) =
      (.error e, s') := by
  rw [drainAfter, Session.run_bind, h]

/-- The loop stops behind a page when there is enough, when the pages end, and when it is not to go
on. -/
theorem run_drainAfter_stop (h : s.run (store.send op request) = (.ok p, s'))
    (hkey : collected.lastKey = none)
    (hstop : Reached limit (collected.absorb (kind.page p)).items ∨ (kind.page p).next? = none ∨
      recursive = false) :
    s.run (store.drainAfter kind limit recursive (budget + 1) request collected) =
      (.ok (some ((collected.absorb (kind.page p)).finish limit recursive (kind.page p).next?)),
        s') := by
  rw [drainAfter, Session.run_bind, h]
  by_cases henough : Reached limit (collected.absorb (kind.page p)).items
  · obtain ⟨n, hn, hle⟩ := henough
    simp only [PageResult.finish, PageResult.filter_of_reached hn hle, Session.run_pure]
  · simp only [PageResult.finish, PageResult.filter_of_not_reached henough]
    cases hnext : (kind.page p).next? with
    | none =>
      cases recursive with
      | true => rfl
      | false =>
        have hlast : ({ collected.absorb (kind.page p) with lastKey := none } : PageResult) =
            collected.absorb (kind.page p) := PageResult.withLastKey_eq_self hkey
        simp only [hlast, Bool.false_eq_true, if_false, Session.run_pure]
    | some key =>
      have hrecursive : recursive = false := by
        rcases hstop with hstop | hstop | hstop
        · exact absurd hstop henough
        · rw [hnext] at hstop
          cases hstop
        · exact hstop
      subst hrecursive
      rfl

/-- The loop goes on behind a page that does not bring enough, if there is another one. -/
theorem run_drainAfter_go_on (h : s.run (store.send op request) = (.ok p, s')) {key : Item}
    (henough : ¬ Reached limit (collected.absorb (kind.page p)).items)
    (hnext : (kind.page p).next? = some key) :
    s.run (store.drainAfter kind limit true (budget + 1) request collected) =
      s'.run (store.drainAfter kind limit true budget (kind.resume request key)
        (collected.absorb (kind.page p))) := by
  rw [drainAfter, Session.run_bind, h]
  simp only [PageResult.filter_of_not_reached henough, hnext, if_true]

end Loop

/-! ## Pages that a provider has -/

section Serving

variable (store : Store σ) (kind : PageKind op)

/-- The deliveries that a provider has for a read, page after page; only behind the last page there
is no more. -/
inductive Serves : op.Request → σ → List (Delivery op) → Prop where
  /-- The last page. -/
  | last {request state d} : store.Delivers request state d →
      (kind.page d.response).next? = none → Serves request state [d]
  /-- A page behind which there is more. -/
  | more {request state d key ds} : store.Delivers request state d →
      (kind.page d.response).next? = some key →
      Serves (kind.resume request key) (store.stateAfter request state d.attempts) ds →
      Serves request state (d :: ds)

/-- The deliveries that a provider has for a read that has some items already, page after page,
until there is enough or no more: behind the last page there may be others if there is enough by
then. -/
inductive ServesEnough (limit : Option Nat) :
    List Item → op.Request → σ → List (Delivery op) → Prop where
  /-- The last page that may be needed. -/
  | last {before request state d} : store.Delivers request state d →
      (kind.page d.response).next? = none ∨
        Reached limit (before ++ (kind.page d.response).items) →
      ServesEnough limit before request state [d]
  /-- A page behind which there is more. -/
  | more {before request state d key ds} : store.Delivers request state d →
      (kind.page d.response).next? = some key →
      ServesEnough limit (before ++ (kind.page d.response).items) (kind.resume request key)
        (store.stateAfter request state d.attempts) ds →
      ServesEnough limit before request state (d :: ds)

variable {store kind} in
/-- All pages are enough. -/
theorem Serves.enough {request : op.Request} {state : σ} {ds : List (Delivery op)}
    (h : Serves store kind request state ds) (limit : Option Nat) (before : List Item) :
    ServesEnough store kind limit before request state ds := by
  induction h generalizing before with
  | last hd hnext => exact .last hd (.inl hnext)
  | more hd hnext _ ih => exact .more hd hnext (ih _)

end Serving

/-- The submissions that deliveries answer, where `goOn` makes the request that goes on behind a
key. -/
def submissionsOf (page : op.Response → Page) (goOn : op.Request → Item → op.Request) :
    op.Request → List (Delivery op) → List (Submission op)
  | _, [] => []
  | request, d :: ds =>
    d.submission request :: submissionsOf page goOn (goOn request (page d.response).lastKey) ds

section Served

variable {store : Store σ} {kind : PageKind op} {request : op.Request} {s : Session σ}
  {ds : List (Delivery op)}

/-- The pages of deliveries. -/
def pagesOf (kind : PageKind op) (ds : List (Delivery op)) : List Page :=
  ds.map fun d => kind.page d.response

/-- The state of a provider behind deliveries for a read. -/
def stateBehind (store : Store σ) (kind : PageKind op) :
    op.Request → σ → List (Delivery op) → σ
  | _, state, [] => state
  | request, state, d :: ds =>
    store.stateBehind kind (kind.resume request (kind.page d.response).lastKey)
      (store.stateAfter request state d.attempts) ds

/-- A read collects page after page until it has enough or the pages end, and one page only if it is
not to go on.  The induction is on the deliveries. -/
theorem run_drainAfter_enough {limit : Option Nat} {collected : PageResult}
    (h : store.ServesEnough kind limit collected.items request s.state ds) (recursive : Bool)
    {budget : Nat} (hbudget : ds.length ≤ budget) (hkey : collected.lastKey = none) :
    ∃ j s', StopsAt limit recursive collected.items (pagesOf kind ds) j ∧
      s.run (store.drainAfter kind limit recursive budget request collected) =
        (.ok (some ((((pagesOf kind ds).take j).foldl PageResult.absorb collected).finish limit
          recursive ((pagesOf kind ds).head?.bind Page.next?))), s') ∧
      s'.log = s.log ++
        ((submissionsOf kind.page kind.resume request ds).take j).flatMap Submission.attempts ∧
      s'.state = store.stateBehind kind request s.state (ds.take j) := by
  generalize hstate : s.state = state at h
  generalize hbefore : collected.items = before at h
  induction h generalizing s collected budget with
  | @last before request state d hd hlast =>
    subst hstate hbefore
    obtain ⟨budget, rfl⟩ : ∃ n, budget = n + 1 := ⟨budget - 1, by simp at hbudget; omega⟩
    refine ⟨1, store.afterAttempts request s d.attempts, .first (.inr (.inl rfl)), ?_, ?_, rfl⟩
    · refine run_drainAfter_stop hd.run_send hkey ?_
      rcases hlast with hnext | henough
      · exact .inr (.inl hnext)
      · exact .inl henough
    · simp [hd.log, submissionsOf]
  | @more before request state d key ds hd hnext hrest ih =>
    subst hstate hbefore
    obtain ⟨budget, rfl⟩ : ∃ n, budget = n + 1 := ⟨budget - 1, by simp at hbudget; omega⟩
    by_cases hstop : Reached limit (collected.items ++ (kind.page d.response).items) ∨
        recursive = false
    · refine ⟨1, store.afterAttempts request s d.attempts, .first ?_, ?_, ?_, rfl⟩
      · exact hstop.imp_right .inr
      · exact run_drainAfter_stop hd.run_send hkey (hstop.imp_right .inr)
      · simp [hd.log, submissionsOf]
    · obtain ⟨henough, hrecursive⟩ := not_or.1 hstop
      rw [Bool.not_eq_false] at hrecursive
      subst hrecursive
      have hserved : (store.afterAttempts request s d.attempts).state =
        store.stateAfter request s.state d.attempts := rfl
      have hkey' : (collected.absorb (kind.page d.response)).lastKey = none := hkey
      obtain ⟨j, s', hstops, hrun, hlog, hstate⟩ :=
        ih (Nat.le_of_succ_le_succ hbudget) hkey' hserved rfl
      refine ⟨j + 1, s', hstops.next henough, ?_, ?_, ?_⟩
      · rw [run_drainAfter_go_on hd.run_send henough hnext, hrun]
        rfl
      · rw [hlog, hd.log, submissionsOf, lastKey_of_next? hnext, List.take_succ_cons,
          List.flatMap_cons, List.append_assoc]
      · rw [hstate, List.take_succ_cons, stateBehind, lastKey_of_next? hnext]

end Served

/-! ## First requests -/

end Store

/-- The request for the first page of a query, with the size of its pages. -/
def QueryRequest.sized (options : PageOptions) (request : QueryRequest) : QueryRequest :=
  { request with limit := options.pageSize.or (options.limit.map Paging.clamp) }

/-- The request for the first page of a scan in so many segments, with the size of its pages: with a
filter, more is asked for than a segment is to bring. -/
def ScanRequest.sized (options : PageOptions) (segments : Nat) (request : ScanRequest) :
    ScanRequest :=
  { request with
    limit := (options.pageSize.or
      ((options.limit.map fun limit => ceilDiv limit segments).map Paging.clamp)).map fun limit =>
        match request.filter with
        | some filter => Paging.overFetch limit (Paging.complexity filter)
        | none => limit }

namespace Store

section First

variable (store : Store σ) {options : PageOptions} (budget : Nat)

/-- A query that asks for something collects pages from its first request on. -/
theorem runQuery_eq (h : options.limit ≠ some 0) (request : QueryRequest) :
    store.runQuery options budget request =
      store.drain .query options.limit options.recursive budget (request.sized options) := by
  rw [runQuery, if_neg h]
  rfl

/-- A single part is the whole. -/
theorem ceilDiv_one (n : Nat) : ceilDiv n 1 = n := by
  simp [ceilDiv]

/-- A scan in one segment collects pages as a query does. -/
theorem runScan_eq_single (h : options.limit ≠ some 0) {requested : Nat}
    (hsingle : Paging.segmentCount requested options.limit = 1) (request : ScanRequest) :
    store.runScan options requested budget request = do
      let result ← store.drain .scan options.limit options.recursive budget
        (request.sized options 1)
      return result.map fun r =>
        if options.recursive then r else { r with segmentKeys := [r.lastKey] } := by
  have hshare : (options.limit.map fun limit => ceilDiv limit 1) = options.limit := by
    simp [ceilDiv_one]
  rw [runScan, if_neg h]
  simp only [hsingle, if_true]
  show (do
    let result ← store.drain .scan (options.limit.map fun limit => ceilDiv limit 1)
      options.recursive budget (request.sized options 1)
    return result.map fun r : PageResult =>
      if options.recursive then r else { r with segmentKeys := [r.lastKey] } :
        Run σ (Option PageResult)) = _
  rw [hshare]

/-- A scan in several segments collects the pages of each, up to its share of the limit, and cuts
what it has to the limit. -/
theorem runScan_eq_many (h : options.limit ≠ some 0) {requested segments : Nat}
    (hsegments : Paging.segmentCount requested options.limit = segments) (hmany : segments ≠ 1)
    (request : ScanRequest) :
    store.runScan options requested budget request = do
      let result ← store.drainSegments (options.limit.map fun limit => ceilDiv limit segments)
        options.recursive budget {}
        (segmentRequests (request.sized options segments) (min segments (twoTo 31 - 1)))
      return result.map (.cut options.limit) := by
  subst hsegments
  rw [runScan, if_neg h]
  simp only [if_neg hmany]
  rfl

end First

end Store

end ItemStore
