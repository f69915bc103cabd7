import Mathlib.Data.List.Chain
import ItemStore.Proofs.Call.Resuming

/-!
# Pages, whatever the provider answers

A paged read submits a request for a page, and then one that goes on behind the key of the page it
got, until it has enough, a submission fails or its budget is used up.  `Drains` lists these
courses, one rule for each way in which a submission can end, and `DrainsAll` those of the segments
of a scan.  Nothing is assumed of the provider, and what is collected on the way is left out of
account.

* `run_drainAfter_drains`, `run_runQuery_drains`, `run_runScan_drains`: a run takes one of the
  courses, and the log grows by the attempts of its submissions.
* `Drains.chain` and `Drains.requests`: every later request goes on behind the page before it, so
  what no start key changes holds of all requests if it holds of the first.
* `Drains.failed_last`: a course fails with its last submission, and a scan with its last course.
-/

namespace ItemStore

namespace Store

variable {σ : Type} {op : Operation}

section Courses

variable (store : Store σ)

/-- The submissions for the pages of one read, and what the read comes to. -/
inductive Drains (kind : PageKind op) :
    op.Request → List (Submission op) → Except StoreError (Option PageResult) → Prop where
  /-- The budget is used up. -/
  | idle {request} : Drains kind request [] (.ok none)
  /-- A submission fails. -/
  | failed {x e} : store.Sent store.config.retry.pauses x → x.outcome = .error e →
      Drains kind x.request [x] (.error (named op x.request e))
  /-- A page is the last one that is read. -/
  | stop {x p result} : store.Sent store.config.retry.pauses x → x.outcome = .ok p →
      Drains kind x.request [x] (.ok (some result))
  /-- A page is not enough, and the read goes on behind it. -/
  | onward {x p key xs result} : store.Sent store.config.retry.pauses x → x.outcome = .ok p →
      (kind.page p).next? = some key → Drains kind (kind.resume x.request key) xs result →
      Drains kind x.request (x :: xs) result

/-- The submissions for segments, segment by segment, and what the scan comes to. -/
inductive DrainsAll : List ScanRequest → List (List (Submission .scan)) →
    Except StoreError (Option PageResult) → Prop where
  /-- No segment is left. -/
  | nil {result} : DrainsAll [] [] (.ok (some result))
  /-- A segment fails. -/
  | failed {request requests xs e} : Drains store .scan request xs (.error e) →
      DrainsAll (request :: requests) [xs] (.error e)
  /-- A segment has more pages than the budget allows. -/
  | idle {request requests xs} : Drains store .scan request xs (.ok none) →
      DrainsAll (request :: requests) [xs] (.ok none)
  /-- A segment is read, and the others follow. -/
  | cons {request requests xs segment xss result} :
      Drains store .scan request xs (.ok (some segment)) → DrainsAll requests xss result →
      DrainsAll (request :: requests) (xs :: xss) result

end Courses

variable (store : Store σ)

/-! ## What runs do -/

/-- A read ends with a page, or goes on behind it. -/
theorem run_drainAfter_answered {kind : PageKind op} {limit : Option Nat} {recursive : Bool}
    {budget : Nat} {request : op.Request} {collected : PageResult} {p : op.Response}
    {s s' : Session σ} (h : s.run (store.send op request) = (.ok p, s')) :
    (∃ result, s.run (store.drainAfter kind limit recursive (budget + 1) request collected) =
        (.ok (some result), s')) ∨
      ∃ key, (kind.page p).next? = some key ∧
        s.run (store.drainAfter kind limit recursive (budget + 1) request collected) =
          s'.run (store.drainAfter kind limit recursive budget (kind.resume request key)
            (collected.absorb (kind.page p))) := by
  rw [drainAfter, Session.run_bind, h]
  dsimp only
  split
  · exact .inl ⟨_, rfl⟩
  · split
    · exact .inl ⟨_, rfl⟩
    · rename_i key hnext
      split
      · exact .inr ⟨key, hnext, rfl⟩
      · exact .inl ⟨_, rfl⟩

/-- A run takes one of the courses.  The induction is on the budget. -/
theorem run_drainAfter_drains (kind : PageKind op) (limit : Option Nat) (recursive : Bool)
    (budget : Nat) (request : op.Request) (collected : PageResult) (s : Session σ) :
    ∃ xs result s', store.Drains kind request xs result ∧
      s.run (store.drainAfter kind limit recursive budget request collected) = (result, s') ∧
      s'.log = s.log ++ xs.flatMap Submission.attempts := by
  induction budget generalizing request collected s with
  | zero => exact ⟨[], _, s, .idle, rfl, by simp⟩
  | succ budget ih =>
    obtain ⟨x, s', rfl, hsent, hrun, hlog⟩ := store.run_send request s
    have hlog' : s'.log = s.log ++ [x].flatMap Submission.attempts := by simpa using hlog
    cases hx : x.outcome with
    | error e =>
      rw [hx] at hrun
      exact ⟨[x], _, s', .failed hsent hx, run_drainAfter_failed hrun, hlog'⟩
    | ok p =>
      rw [hx] at hrun
      rcases store.run_drainAfter_answered hrun with ⟨result, hstop⟩ | ⟨key, hnext, honward⟩
      · exact ⟨[x], _, s', .stop hsent hx, hstop, hlog'⟩
      · obtain ⟨xs, result, s'', hdrains, hrest, hlog''⟩ :=
          ih (kind.resume x.request key) (collected.absorb (kind.page p)) s'
        refine ⟨x :: xs, result, s'', .onward hsent hx hnext hdrains, honward.trans hrest, ?_⟩
        rw [hlog'', hlog, List.flatMap_cons, List.append_assoc]

/-- A run over segments takes one of the courses for each, up to the first that does not come to a
result.  The induction is on the segments. -/
theorem run_drainSegments_drains (limit : Option Nat) (recursive : Bool) (budget : Nat)
    (collected : PageResult) (requests : List ScanRequest) (s : Session σ) :
    ∃ xss result s', store.DrainsAll requests xss result ∧
      s.run (store.drainSegments limit recursive budget collected requests) = (result, s') ∧
      s'.log = s.log ++ xss.flatten.flatMap Submission.attempts := by
  induction requests generalizing collected s with
  | nil => exact ⟨[], _, s, .nil, rfl, by simp⟩
  | cons request requests ih =>
    obtain ⟨xs, result, s', hdrains, hrun, hlog⟩ :=
      store.run_drainAfter_drains .scan limit recursive budget request {} s
    have hlog' : s'.log = s.log ++ [xs].flatten.flatMap Submission.attempts := by simpa using hlog
    rcases result with e | _ | segment
    · refine ⟨[xs], _, s', .failed hdrains, ?_, hlog'⟩
      rw [drainSegments, Session.run_bind, drain, hrun]
    · refine ⟨[xs], _, s', .idle hdrains, ?_, hlog'⟩
      rw [drainSegments, Session.run_bind, drain, hrun]
      rfl
    · obtain ⟨xss, result, s'', hall, hrest, hlog''⟩ :=
        ih (collected.absorbSegment segment recursive) s'
      refine ⟨xs :: xss, result, s'', .cons hdrains hall, ?_, ?_⟩
      · rw [drainSegments, Session.run_bind, drain, hrun]
        exact hrest
      · rw [hlog'', hlog, List.flatten_cons, List.flatMap_append, List.append_assoc]

/-- A query takes one of the courses, unless nothing is wanted. -/
theorem run_runQuery_drains {options : PageOptions} (hlimit : options.limit ≠ some 0)
    (budget : Nat) (request : QueryRequest) (s : Session σ) :
    ∃ xs result s', store.Drains .query (request.sized options) xs result ∧
      s.run (store.runQuery options budget request) = (result, s') ∧
      s'.log = s.log ++ xs.flatMap Submission.attempts := by
  rw [store.runQuery_eq budget hlimit]
  exact store.run_drainAfter_drains .query _ _ _ _ _ s

/-- A course of a read without segments is one of a scan. -/
theorem DrainsAll.single {request : ScanRequest} {xs : List (Submission .scan)}
    {result : Except StoreError (Option PageResult)} (h : store.Drains .scan request xs result) :
    store.DrainsAll [request] [xs] result := by
  rcases result with e | _ | r
  · exact .failed h
  · exact .idle h
  · exact .cons h .nil

/-- A scan takes one of the courses for its segments, unless nothing is wanted; what it fails with
is what the course fails with. -/
theorem run_runScan_drains {options : PageOptions} (hlimit : options.limit ≠ some 0)
    {requested segments : Nat} (hsegments : Paging.segmentCount requested options.limit = segments)
    (budget : Nat) (request : ScanRequest) (s : Session σ) :
    ∃ xss result f s',
      store.DrainsAll (requestsFor (request.sized options segments) segments) xss result ∧
      s.run (store.runScan options requested budget request) = (result.map (Option.map f), s') ∧
      s'.log = s.log ++ xss.flatten.flatMap Submission.attempts := by
  by_cases hone : segments = 1
  · subst hone
    rw [store.runScan_eq_single budget hlimit hsegments, requestsFor, if_pos rfl]
    obtain ⟨xs, result, s', hdrains, hrun, hlog⟩ := store.run_drainAfter_drains .scan options.limit
      options.recursive budget (request.sized options 1) {} s
    refine ⟨[xs], result, fun r => if options.recursive then r else
      { r with segmentKeys := [r.lastKey] }, s', .single store hdrains, ?_, by simpa using hlog⟩
    rw [Session.run_bind, drain, hrun]
    cases result <;> rfl
  · rw [store.runScan_eq_many budget hlimit hsegments hone, requestsFor, if_neg hone]
    obtain ⟨xss, result, s', hall, hrun, hlog⟩ := store.run_drainSegments_drains
      (options.limit.map fun limit => ceilDiv limit segments) options.recursive budget {}
      (segmentRequests (request.sized options segments) (min segments (twoTo 31 - 1))) s
    refine ⟨xss, result, .cut options.limit, s', hall, ?_, hlog⟩
    rw [Session.run_bind, hrun]
    cases result <;> rfl

/-! ## What courses keep -/

section Kept

variable {store} {kind : PageKind op} {request : op.Request} {xs : List (Submission op)}
  {result : Except StoreError (Option PageResult)}

/-- The first request is the one that the course is about. -/
theorem Drains.head (h : store.Drains kind request xs result) :
    ∀ x ∈ xs.head?, x.request = request := by
  cases h <;> simp

/-- Every later request goes on behind the page that came for the one before it. -/
theorem Drains.chain (h : store.Drains kind request xs result) :
    xs.IsChain fun x y => ∃ p key, x.outcome = .ok p ∧ (kind.page p).next? = some key ∧
      y.request = kind.resume x.request key := by
  induction h with
  | idle => exact .nil
  | failed => exact .singleton _
  | stop => exact .singleton _
  | onward _ hx hnext hrest ih =>
    exact ih.cons fun y hy => ⟨_, _, hx, hnext, hrest.head y hy⟩

/-- A course fails with its last submission. -/
theorem Drains.failed_last {e : StoreError} (h : store.Drains kind request xs (.error e)) :
    ∃ answered x source, xs = answered ++ [x] ∧ x.outcome = .error source ∧
      e = named op x.request source := by
  generalize hresult : Except.error e = result at h
  induction h with
  | idle => cases hresult
  | failed _ hx =>
    cases hresult
    exact ⟨[], _, _, rfl, hx, rfl⟩
  | stop => cases hresult
  | @onward x _ _ _ _ _ _ _ _ ih =>
    obtain ⟨answered, last, source, rfl, hlast, he⟩ := ih hresult
    exact ⟨x :: answered, last, source, rfl, hlast, he⟩

/-- What the first request has and no start key changes, all requests of a course have. -/
theorem Drains.requests {P : op.Request → Prop}
    (hkeep : ∀ request key, P request → P (kind.resume request key))
    (h : store.Drains kind request xs result) (hP : P request) : ∀ x ∈ xs, P x.request := by
  induction h with
  | idle => simp
  | failed => simpa using hP
  | stop => simpa using hP
  | onward _ _ _ _ ih => exact List.forall_mem_cons.2 ⟨hP, ih (hkeep _ _ hP)⟩

/-- A scan fails with its last course. -/
theorem DrainsAll.failed_last {requests : List ScanRequest}
    {xss : List (List (Submission .scan))} {e : StoreError}
    (h : store.DrainsAll requests xss (.error e)) :
    ∃ request ∈ requests, ∃ before xs, xss = before ++ [xs] ∧
      store.Drains .scan request xs (.error e) := by
  generalize hresult : Except.error e = result at h
  induction h with
  | nil => cases hresult
  | failed hxs =>
    cases hresult
    exact ⟨_, List.mem_cons_self .., [], _, rfl, hxs⟩
  | idle => cases hresult
  | @cons _ _ xs _ _ _ _ _ ih =>
    obtain ⟨request, hrequest, before, last, rfl, hlast⟩ := ih hresult
    exact ⟨request, List.mem_cons_of_mem _ hrequest, xs :: before, last, rfl, hlast⟩

theorem DrainsAll.requests {P : ScanRequest → Prop}
    (hkeep : ∀ request key, P request → P (PageKind.scan.resume request key))
    {requests : List ScanRequest} {xss : List (List (Submission .scan))}
    (h : store.DrainsAll requests xss result) (hP : ∀ request ∈ requests, P request) :
    ∀ x ∈ xss.flatten, P x.request := by
  induction h with
  | nil => simp
  | failed h =>
    simpa using h.requests hkeep (hP _ (List.mem_cons_self ..))
  | idle h =>
    simpa using h.requests hkeep (hP _ (List.mem_cons_self ..))
  | cons h _ ih =>
    obtain ⟨hfirst, hrest⟩ := List.forall_mem_cons.1 hP
    rw [List.flatten_cons]
    exact List.forall_mem_append.2 ⟨h.requests hkeep hfirst, ih hrest⟩

end Kept

end Store

end ItemStore
