import ItemStore.Proofs.Call.Drains
import ItemStore.Proofs.Store.Chunks
import ItemStore.Proofs.Store.Failures
import ItemStore.Proofs.Wire.Printed

/-!
# Failures name their causes

A call sends requests in lanes: one request, the pages of a query or of a segment, or a chunk with
what is left open of it.  In every lane a request follows from the response to the one before it
(`Route`), and the first submission that fails ends the lane and the call.  So the error of a call
has the request that was sent last, not the first one of its lane, and what the last attempt at it
came to (`FailedAt`).  It has the request as JSON text, which reads back as what is written for the
request.

That needs providers whose errors do not pretend to have a request (`Provider.FailsBare`): an error
that has one keeps it, whatever request is named behind it.

The lanes of a call are independent, and a client lets them run at the same time and returns the
first error in time.  What `FailedAt` says of the lane that fails and of its error is about this
lane alone, so it holds for any order of the lanes, with the lane that fails first.  Only `log` and
`attempt` are about the order that is used here, one lane after another: in another order attempts
of other lanes may stand between those of this one and behind them.

* `Made.bare`: with such a provider no attempt comes to an error with a request.
* `failedAt_of_log`: a lane whose last submission fails is where the call fails.
* `failure_names_request` has it for all calls.
-/

namespace ItemStore

/-! ## Bare errors -/

/-- An error without a request. -/
def StoreError.Bare (e : StoreError) : Prop := ∀ op text source, e ≠ .request op text source

theorem StoreError.Bare.named {e : StoreError} (h : e.Bare) (op : Operation)
    (request : op.Request) : Store.named op request e = .request op (op.requestText request) e := by
  cases e with
  | request op' text source => exact absurd rfl (h op' text source)
  | _ => rfl

/-- No error of a provider has a request. -/
def Provider.FailsBare {σ : Type} (provider : Provider σ) : Prop :=
  ∀ op request state e, (provider op request state).1.outcome = .error e → e.Bare

namespace Store

variable {σ : Type}

theorem bare_of_settle {α : Type} {deadline : Duration} {reply : Reply α} {e : StoreError}
    (hreply : ∀ e, reply.outcome = .error e → e.Bare) (h : settle deadline reply = .error e) :
    e.Bare := by
  unfold settle at h
  split at h
  · cases h
    intro op text source heq
    cases heq
  · exact hreply e h

/-- An attempt does not come to an error with a request. -/
theorem Made.bare {store : Store σ} (hbare : store.provider.FailsBare) {a : Attempt}
    (ha : store.Made a) {e : StoreError} (he : a.outcome = .error e) : e.Bare := by
  obtain ⟨n, state, houtcome⟩ := ha
  exact bare_of_settle (hbare a.operation a.request state) (houtcome.symm.trans he)

end Store

/-! ## Lanes -/

/-- How the requests of the lanes of a call follow one another. -/
structure Route (op : Operation) where
  /-- The first requests of the lanes. -/
  first : List op.Request
  /-- Whether a request follows another one behind a response. -/
  next : op.Request → op.Response → op.Request → Prop

namespace Route

variable {op : Operation}

/-- There is one request, and no other follows it. -/
def single (op : Operation) (request : op.Request) : Route op where
  first := [request]
  next _ _ _ := False

/-- Behind a page there is the same request, with the key of the page as its start. -/
def pages (kind : PageKind op) (first : List op.Request) : Route op where
  first := first
  next request p later :=
    ∃ key, (kind.page p).next? = some key ∧ later = kind.resume request key

/-- Behind the response for a chunk there is what it leaves open of the request. -/
def chunks (kind : BatchKind op) (batch : op.Request) : Route op where
  first := kind.chunks batch
  next request p later := later = kind.remainder request p

end Route

namespace Store

variable {σ : Type} {op : Operation}

/-- A call fails in a lane in which some submissions are answered and the `last` one is not.  The
last attempt at that one comes to `source`. -/
structure FailedAt (route : Route op) (s s' : Session σ) (e : StoreError)
    (answered : List (Submission op)) (last : Submission op) (source : StoreError) : Prop where
  /-- The lane begins with a first request. -/
  first : ∀ x ∈ (answered ++ [last]).head?, x.request ∈ route.first
  /-- Every other request of the lane follows the one before it, behind the response to that. -/
  next : (answered ++ [last]).IsChain fun x y =>
    ∃ p, x.outcome = .ok p ∧ route.next x.request p y.request
  /-- Nothing is sent behind the lane, when lanes run one after another. -/
  log : ∃ earlier, s'.log = s.log ++ earlier ++ (answered ++ [last]).flatMap Submission.attempts
  /-- The last attempt of all is then the last one at the last request. -/
  attempt : s'.log.getLast? = some (last.attempt (.error source))
  /-- The error has the operation, the text of the last request and what that attempt came to. -/
  error : e = .request op (op.requestText last.request) source
  /-- That text reads back as what is written for the request, with the fields of every object in
  the order of their names. -/
  text : Json.ofText? (op.requestText last.request) =
    some (op.requestCodec.encode last.request).sorted
  /-- Another attempt may succeed exactly if that is true of the source. -/
  retryable : e.isRetryable = source.isRetryable
  /-- The error of the provider is that of the source. -/
  service : e.service? = source.service?
  /-- Naming requests once more changes nothing, however often. -/
  again : ∀ requests : List (Operation × Except String String),
    requests.foldl (fun e r => e.withRequest r.1 r.2) e = e

/-- A call fails in one of its lanes, and the error names the request with which it does. -/
def NamesRequest (route : Route op) (s s' : Session σ) (e : StoreError) : Prop :=
  ∃ answered last source, FailedAt route s s' e answered last source

theorem foldl_withRequest (op : Operation) (text : String) (source : StoreError)
    (requests : List (Operation × Except String String)) :
    requests.foldl (fun (e : StoreError) r => e.withRequest r.1 r.2) (.request op text source) =
      .request op text source := by
  induction requests with
  | nil => rfl
  | cons r requests ih => exact ih

theorem getLast?_attempts (x : Submission op) (before : List Attempt) :
    (before ++ x.attempts).getLast? = some (x.attempt x.outcome) := by
  rw [Submission.attempts, ← List.append_assoc, List.getLast?_concat]

/-- A run that ends with a lane whose last submission fails, fails there. -/
theorem failedAt_of_log {α : Type} {store : Store σ} (hbare : store.provider.FailsBare)
    {r : Run σ α} (hmade : Run.Logs store.Made r) {s s' : Session σ} {e : StoreError}
    (hrun : s.run r = (.error e, s')) {route : Route op} (earlier : List Attempt)
    {answered : List (Submission op)} {last : Submission op} {source : StoreError}
    (hlog : s'.log = s.log ++ earlier ++ (answered ++ [last]).flatMap Submission.attempts)
    (hlast : last.outcome = .error source) (he : e = named op last.request source)
    (hfirst : ∀ x ∈ (answered ++ [last]).head?, x.request ∈ route.first)
    (hnext : (answered ++ [last]).IsChain fun x y =>
      ∃ p, x.outcome = .ok p ∧ route.next x.request p y.request) :
    FailedAt route s s' e answered last source := by
  have hattempt : s'.log.getLast? = some (last.attempt (.error source)) := by
    rw [hlog, List.flatMap_append, List.flatMap_singleton, ← List.append_assoc, getLast?_attempts,
      hlast]
  have hsource : source.Bare := by
    obtain ⟨made, hlog', hmade⟩ := hmade s
    rw [hrun, hlog, List.append_assoc] at hlog'
    have hmem : last.attempt (.error source) ∈ made := by
      rw [← List.append_cancel_left hlog', List.flatMap_append, List.flatMap_singleton,
        Submission.attempts, hlast]
      simp
    exact (hmade _ hmem).bare hbare rfl
  have herror : e = .request op (op.requestText last.request) source := he.trans (hsource.named ..)
  exact {
    first := hfirst
    next := hnext
    log := ⟨earlier, hlog⟩
    attempt := hattempt
    error := herror
    text := op.ofText?_requestText last.request
    retryable := by rw [herror]; rfl
    service := by rw [herror]; rfl
    again := by rw [herror]; exact foldl_withRequest _ _ _ }

/-! ## Loops -/

section Loops

variable (store : Store σ) {s s' : Session σ} {e : StoreError}

/-- A request that fails is the only one of its lane. -/
theorem send_namesRequest (hbare : store.provider.FailsBare) {request : op.Request}
    (h : s.run (store.send op request) = (.error e, s')) :
    NamesRequest (.single op request) s s' e := by
  obtain ⟨x, s'', rfl, -, hrun, hlog⟩ := store.run_send request s
  obtain ⟨hresult, rfl⟩ := Prod.mk.inj (h.symm.trans hrun)
  cases hx : x.outcome with
  | ok p =>
    rw [hx] at hresult
    cases hresult
  | error source =>
    rw [hx] at hresult
    cases hresult
    exact ⟨[], x, source, failedAt_of_log hbare (store.send_logs op x.request) h []
      (by simpa using hlog) hx rfl (by simp [Route.single]) (.singleton _)⟩

/-- A course of pages that fails is a lane. -/
theorem Drains.namesRequest {store : Store σ} (hbare : store.provider.FailsBare) {α : Type}
    {r : Run σ α} (hmade : Run.Logs store.Made r) (hrun : s.run r = (.error e, s'))
    {kind : PageKind op} {request : op.Request} {xs : List (Submission op)}
    (h : store.Drains kind request xs (.error e)) {requests : List op.Request}
    (hrequest : request ∈ requests) (earlier : List Attempt)
    (hlog : s'.log = s.log ++ earlier ++ xs.flatMap Submission.attempts) :
    NamesRequest (.pages kind requests) s s' e := by
  have hfirst : ∀ x ∈ xs.head?, x.request ∈ requests := fun x hx => h.head x hx ▸ hrequest
  have hnext := h.chain.imp fun x y hxy => by
    obtain ⟨p, key, hp, hkey, hy⟩ := hxy
    exact (⟨p, hp, key, hkey, hy⟩ : ∃ p, x.outcome = .ok p ∧
      (Route.pages kind requests).next x.request p y.request)
  obtain ⟨answered, last, source, rfl, hlast, he⟩ := h.failed_last
  exact ⟨answered, last, source,
    failedAt_of_log hbare hmade hrun earlier hlog hlast he hfirst hnext⟩

theorem runQuery_namesRequest (hbare : store.provider.FailsBare) {options : PageOptions}
    {budget : Nat} {request : QueryRequest}
    (h : s.run (store.runQuery options budget request) = (.error e, s')) :
    NamesRequest (.pages .query [request.sized options]) s s' e := by
  by_cases hlimit : options.limit = some 0
  · rw [runQuery, if_pos hlimit] at h
    cases h
  obtain ⟨xs, result, s'', hdrains, hrun, hlog⟩ :=
    store.run_runQuery_drains hlimit budget request s
  obtain ⟨rfl, rfl⟩ := Prod.mk.inj (h.symm.trans hrun)
  exact hdrains.namesRequest hbare (store.runQuery_sends options budget request).logs h
    (List.mem_singleton_self _) [] (by simpa using hlog)

theorem runScan_namesRequest (hbare : store.provider.FailsBare) {options : PageOptions}
    {requested budget : Nat} {request : ScanRequest}
    (h : s.run (store.runScan options requested budget request) = (.error e, s')) :
    NamesRequest (.pages .scan (requestsFor
      (request.sized options (Paging.segmentCount requested options.limit))
      (Paging.segmentCount requested options.limit))) s s' e := by
  by_cases hlimit : options.limit = some 0
  · rw [runScan, if_pos hlimit] at h
    cases h
  obtain ⟨xss, result, f, s'', hall, hrun, hlog⟩ :=
    store.run_runScan_drains hlimit rfl budget request s
  obtain ⟨hresult, rfl⟩ := Prod.mk.inj (h.symm.trans hrun)
  cases result with
  | ok r => cases hresult
  | error e' =>
    cases hresult
    obtain ⟨first, hfirst, before, xs, rfl, hdrains⟩ := hall.failed_last
    refine hdrains.namesRequest hbare (store.runScan_sends options requested budget request).logs h
      hfirst (before.flatten.flatMap Submission.attempts) ?_
    rw [hlog, List.flatten_append, List.flatten_singleton, List.flatMap_append, List.append_assoc]

/-- A chunk that fails is a lane, unless it is given up. -/
theorem runBatch_namesRequest (hbare : store.provider.FailsBare) {kind : BatchKind op}
    {batch : op.Request} (h : s.run (store.runBatch kind batch) = (.error e, s')) :
    NamesRequest (.chunks kind batch) s s' e ∨
      ∃ remaining attempts, e = .unprocessed op remaining attempts := by
  obtain ⟨xss, result, s'', hall, hrun, hlog⟩ := store.run_runBatch kind batch s
  obtain ⟨hresult, rfl⟩ := Prod.mk.inj (h.symm.trans hrun)
  cases result with
  | ok rs => cases hresult
  | error e' =>
    cases hresult
    obtain ⟨chunk, hchunk, before, xs, rfl, hsubmits⟩ := hall.failed_last
    have hhead := hsubmits.head
    have hnext := hsubmits.chain
    rcases hsubmits.failed_last with ⟨answered, last, source, rfl, hlast, he⟩ | hspent
    · left
      refine ⟨answered, last, source, failedAt_of_log hbare (store.runBatch_sends kind batch).logs h
        (before.flatten.flatMap Submission.attempts) ?_ hlast he ?_ hnext⟩
      · rw [hlog, List.flatten_append, List.flatten_singleton, List.flatMap_append,
          List.append_assoc]
      · intro x hx
        rw [Option.mem_def.1 hx] at hhead
        cases hhead
        exact hchunk
    · exact .inr hspent

end Loops

/-! ## Calls -/

/-- What holds whenever a call fails whose description has a request. -/
def WhenFailing {ρ α : Type} (compiled : Except StoreError ρ) (call : Run σ α)
    (P : ρ → Session σ → Session σ → StoreError → Prop) : Prop :=
  ∀ request s s' e, compiled = .ok request → s.run call = (.error e, s') → P request s s' e

theorem whenFailing_of_perform {ρ α : Type} {compiled : Except StoreError ρ} {perform : ρ → Run σ α}
    {P : ρ → Session σ → Session σ → StoreError → Prop}
    (h : ∀ request s s' e, s.run (perform request) = (.error e, s') → P request s s' e) :
    WhenFailing compiled (do perform (← .lift compiled)) P := by
  intro request s s' e hcompiled hrun
  rw [Session.run_lift_bind, hcompiled] at hrun
  exact h request s s' e hrun

/-- The first requests of a scan whose description has a request. -/
def scanRequests (store : Store σ) (c : Call.Scan) (request : ScanRequest) : List ScanRequest :=
  let segments := Paging.segmentCount (c.segments.getD store.config.scanSegments) c.paging.limit
  requestsFor (request.sized c.paging segments) segments

/-- **Errors name the request that caused them**, for every call and every provider whose own errors
have no request.

If a call fails though its description has a request, it has given up a batch, or it fails in a
lane: requests that follow one another, each behind the response to the one before it, up to one
that no attempt succeeds at.  The error then has the operation, the text of that last request and
what the last attempt at it came to.  The text reads back as what is written for the request.
Whether another attempt may succeed, and what the provider reported, is as for the attempt itself,
and naming a request again changes nothing. -/
theorem failure_names_request (store : Store σ) (hbare : store.provider.FailsBare) :
    (∀ g : Call.Get, WhenFailing g.compile (store.get g) fun request =>
      NamesRequest (.single .getItem request)) ∧
    (∀ p : Call.Put, WhenFailing p.compile (store.put p) fun request =>
      NamesRequest (.single .putItem request)) ∧
    (∀ u : Call.Update, WhenFailing u.compile (store.update u) fun request =>
      NamesRequest (.single .updateItem request)) ∧
    (∀ d : Call.Delete, WhenFailing d.compile (store.delete d) fun request =>
      NamesRequest (.single .deleteItem request)) ∧
    (∀ (q : Call.Query) (budget : Nat), WhenFailing q.compile (store.query budget q) fun request =>
      NamesRequest (.pages .query [request.sized q.paging])) ∧
    (∀ (c : Call.Scan) (budget : Nat), WhenFailing c.compile (store.scan budget c) fun request =>
      NamesRequest (.pages .scan (store.scanRequests c request))) ∧
    (∀ b : Call.BatchGet, WhenFailing b.compile (store.batchGet b) fun batch s s' e =>
      NamesRequest (.chunks .reads batch) s s' e ∨
        ∃ remaining attempts, e = .unprocessed .batchGetItem remaining attempts) ∧
    (∀ b : Call.BatchWrite, WhenFailing b.compile (store.batchWrite b) fun batch s s' e =>
      NamesRequest (.chunks .writes batch) s s' e ∨
        ∃ remaining attempts, e = .unprocessed .batchWriteItem remaining attempts) ∧
    (∀ t : Call.TransactWrite, WhenFailing t.compile (store.transactWrite t) fun request =>
      NamesRequest (.single .transactWriteItems request)) ∧
    (∀ t : Call.TransactRead, WhenFailing t.compile (store.transactRead t) fun request =>
      NamesRequest (.single .transactGetItems request)) := by
  have hsend (op : Operation) (request : op.Request) (s s' : Session σ) (e : StoreError)
      (h : s.run (store.send op request) = (.error e, s')) :
      NamesRequest (.single op request) s s' e := store.send_namesRequest hbare h
  refine ⟨fun g => whenFailing_of_perform (hsend .getItem),
    fun p => whenFailing_of_perform (hsend .putItem),
    fun u => whenFailing_of_perform (hsend .updateItem),
    fun d => whenFailing_of_perform (hsend .deleteItem),
    fun q budget => whenFailing_of_perform fun _ _ _ _ h => store.runQuery_namesRequest hbare h,
    fun c budget => whenFailing_of_perform fun _ _ _ _ h => store.runScan_namesRequest hbare h,
    fun b => whenFailing_of_perform fun _ _ _ _ h => store.runBatch_namesRequest hbare h,
    fun b => whenFailing_of_perform fun _ _ _ _ h => store.runBatch_namesRequest hbare h,
    fun t => whenFailing_of_perform (hsend .transactWriteItems),
    fun t => whenFailing_of_perform (hsend .transactGetItems)⟩

/-- Whether a run fails with something that the provider reported. -/
def isReported {α : Type} (outcome : Except StoreError α × Session σ) : Bool :=
  match outcome.1 with
  | .ok _ => false
  | .error e => e.service?.isSome

theorem exists_of_isReported {α : Type} {outcome : Except StoreError α × Session σ}
    (h : isReported outcome = true) :
    ∃ e s', outcome = (.error e, s') ∧ e.service?.isSome = true := by
  obtain ⟨_ | _, s'⟩ := outcome
  · exact ⟨_, s', rfl, h⟩
  · cases h

/-- A provider that answers one request, with a page behind which there is more or with the first
write left open, and refuses what comes then. -/
def onceOnly : Provider Nat
  | .query, _, 0 => ({ outcome := .ok { lastKey := .singleton "id" (.string "a") } }, 1)
  | .batchWriteItem, request, 0 =>
    ({ outcome := .ok
        { unprocessed := (request : BatchWriteRequest).tables.mapWithKey fun _ writes =>
            writes.take 1 } }, 1)
  | _, _, n => ({ outcome := .error (.service (.ofCode .accessDenied "no more")) }, n + 1)

theorem onceOnly_failsBare : onceOnly.FailsBare := by
  intro op request n e h
  have hrefused : e = .service (.ofCode .accessDenied "no more") := by
    unfold onceOnly at h
    split at h <;> cases h
    rfl
  rw [hrefused]
  intro op' text source heq
  cases heq

/-- A query for whatever is under a key. -/
def ofKey : Call.Query where
  table := "t"
  keyCondition := .compare (.path "id") .eq (.string "a")

/-- Two writes. -/
def twoWrites : Call.BatchWrite where
  table := "t"
  writes := [.put (.singleton "id" (.string "a")), .delete (.singleton "id" (.string "b"))]

theorem failure_names_request_later :
    (∃ request e s', ofKey.compile = .ok request ∧
      (⟨0, {}, []⟩ : Session Nat).run ((new onceOnly).query 3 ofKey) = (.error e, s') ∧
      NamesRequest (.pages .query [request.sized ofKey.paging]) ⟨0, {}, []⟩ s' e ∧
      s'.log.length = 2) ∧
    ∃ batch e s', twoWrites.compile = .ok batch ∧
      (⟨0, {}, []⟩ : Session Nat).run ((new onceOnly).batchWrite twoWrites) = (.error e, s') ∧
      NamesRequest (.chunks .writes batch) ⟨0, {}, []⟩ s' e ∧ s'.log.length = 2 := by
  constructor
  · obtain ⟨request, hrequest⟩ := exists_eq_ok (x := ofKey.compile) (by decide +kernel)
    have hreported : isReported ((⟨0, {}, []⟩ : Session Nat).run ((new onceOnly).query 3 ofKey)) =
        true := by decide +kernel
    have hlength : ((⟨0, {}, []⟩ : Session Nat).run ((new onceOnly).query 3 ofKey)).2.log.length =
        2 := by decide +kernel
    obtain ⟨e, s', hrun, -⟩ := exists_of_isReported hreported
    have hnames := (failure_names_request (new onceOnly) onceOnly_failsBare).2.2.2.2.1 ofKey 3
      request _ s' e hrequest hrun
    rw [hrun] at hlength
    exact ⟨request, e, s', hrequest, hrun, hnames, hlength⟩
  · obtain ⟨batch, hbatch⟩ := exists_eq_ok (x := twoWrites.compile) (by decide +kernel)
    have hreported : isReported ((⟨0, {}, []⟩ : Session Nat).run
        ((new onceOnly).batchWrite twoWrites)) = true := by decide +kernel
    have hlength : ((⟨0, {}, []⟩ : Session Nat).run
        ((new onceOnly).batchWrite twoWrites)).2.log.length = 2 := by decide +kernel
    obtain ⟨e, s', hrun, hservice⟩ := exists_of_isReported hreported
    have hnames := (failure_names_request (new onceOnly) onceOnly_failsBare).2.2.2.2.2.2.2.1
      twoWrites batch _ s' e hbatch hrun
    rw [hrun] at hlength
    rcases hnames with hnames | ⟨remaining, attempts, rfl⟩
    · exact ⟨batch, e, s', hbatch, hrun, hnames, hlength⟩
    · cases hservice

end Store

end ItemStore
