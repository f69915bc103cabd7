import ItemStore.Store.Attempts
import ItemStore.Proofs.Lists

/-!
# What sending a request leaves behind

A request that is sent is attempted once or more, and every attempt is put at the end of the log of
the session.  A `Submission` is a request with everything its attempts came to, and
`Submission.attempts` lists them as the log has them.  `run_send` says what sending comes to: the
log grows by the attempts of one submission, and the result is that of its last attempt.

How a run is put together is said once, in the first section, so that no later proof looks into the
monads of `Run`.
-/

namespace ItemStore

/-! ## Runs -/

namespace Session

variable {σ α β : Type} (s : Session σ)

@[simp] theorem run_pure (x : α) : s.run (pure x) = (.ok x, s) := rfl

@[simp] theorem run_throw (e : StoreError) : s.run (throw e : Run σ α) = (.error e, s) := rfl

@[simp] theorem run_lift (result : Except StoreError α) :
    s.run (Run.lift result) = (result, s) := rfl

theorem run_bind (r : Run σ α) (f : α → Run σ β) :
    s.run (r >>= f) = match s.run r with
      | (.ok x, s') => s'.run (f x)
      | (.error e, s') => (.error e, s') := by
  show (match s.run r with | (result, s') => ExceptT.bindCont f result s') = _
  cases s.run r with
  | mk result s' => cases result <;> rfl

/-- A run behind a result that needs nothing to be sent. -/
theorem run_lift_bind (result : Except StoreError α) (f : α → Run σ β) :
    s.run (Run.lift result >>= f) = match result with
      | .ok x => s.run (f x)
      | .error e => (.error e, s) := by
  rw [run_bind, run_lift]
  cases result <;> rfl

theorem run_tryCatch (r : Run σ α) (f : StoreError → Run σ α) :
    s.run (tryCatch r f) = match s.run r with
      | (.ok x, s') => (.ok x, s')
      | (.error e, s') => s'.run (f e) := by
  unfold Session.run
  show ExceptT.tryCatch r f s = _
  simp only [ExceptT.tryCatch, ExceptT.mk, bind, StateT.bind]
  cases r s with
  | mk result s' => cases result <;> rfl

theorem run_mapError (f : StoreError → StoreError) (r : Run σ α) :
    s.run (r.mapError f) = ((s.run r).1.mapError f, (s.run r).2) := by
  show (match s.run r with
    | (.ok x, s') => (Except.ok x, s')
    | (.error e, s') => (Except.error (f e), s')) = _
  cases s.run r with
  | mk result s' => cases result <;> rfl

end Session

/-! ## Submissions -/

/-- A request that was sent, and what the attempts at it came to. -/
structure Submission (op : Operation) where
  /-- The request. -/
  request : op.Request
  /-- What the attempts came to that were followed by another one. -/
  failures : List StoreError
  /-- What the last attempt came to. -/
  outcome : Except StoreError op.Response

namespace Submission

variable {op : Operation}

/-- An attempt at the request that came to an outcome. -/
def attempt (x : Submission op) (outcome : Except StoreError op.Response) : Attempt where
  operation := op
  request := x.request
  outcome := outcome

/-- The attempts of a submission, as a log has them. -/
def attempts (x : Submission op) : List Attempt :=
  x.failures.map (fun e => x.attempt (.error e)) ++ [x.attempt x.outcome]

/-- A submission with another failure in front. -/
def after (e : StoreError) (x : Submission op) : Submission op :=
  { x with failures := e :: x.failures }

theorem attempts_after (e : StoreError) (x : Submission op) :
    (x.after e).attempts = x.attempt (.error e) :: x.attempts := rfl

end Submission

namespace Store

variable {σ : Type} {op : Operation}

/-- What is true of every submission that a store makes with so many retries at most. -/
structure Sent (store : Store σ) (retries : Nat) (x : Submission op) : Prop where
  /-- Only what may succeed later is tried again. -/
  retryable : ∀ e ∈ x.failures, e.isRetryable = true
  /-- The retries are not exceeded. -/
  within : x.failures.length ≤ retries
  /-- A failure that may succeed later is final only when the retries are used up. -/
  spent : ∀ e, x.outcome = .error e → e.isRetryable = true → x.failures.length = retries
  /-- A response comes from the provider. -/
  answered : ∀ p, x.outcome = .ok p →
    ∃ state, (store.provider op x.request state).1.outcome = .ok p

theorem eq_ok_of_settle {α : Type} {deadline : Duration} {reply : Reply α} {x : α}
    (h : settle deadline reply = .ok x) : reply.outcome = .ok x := by
  unfold settle at h
  by_cases hlate : deadline.nanos < reply.delay.nanos
  · rw [if_pos hlate] at h
    cases h
  · rwa [if_neg hlate] at h

/-- One attempt is one entry of the log. -/
theorem run_attempt (store : Store σ) (request : op.Request) (n : Nat) (s : Session σ) :
    ∃ outcome s', s.run (store.attempt op request n) = (outcome, s') ∧
      s'.log = s.log ++ [{ operation := op, request, outcome }] ∧
      ∀ p, outcome = .ok p → ∃ state, (store.provider op request state).1.outcome = .ok p := by
  refine ⟨_, _, rfl, rfl, ?_⟩
  intro p hp
  exact ⟨s.state, eq_ok_of_settle hp⟩

/-- The attempts at a request are those of one submission.  The induction is on the retries that are
left. -/
theorem run_attempts (store : Store σ) (request : op.Request) (n retries : Nat) (s : Session σ) :
    ∃ (x : Submission op) (s' : Session σ), x.request = request ∧ store.Sent retries x ∧
      s.run (store.attempts op request n retries) = (x.outcome, s') ∧
      s'.log = s.log ++ x.attempts := by
  induction retries generalizing n s with
  | zero =>
    obtain ⟨outcome, s', hrun, hlog, hanswered⟩ := store.run_attempt request n s
    exact ⟨⟨request, [], outcome⟩, s', rfl, ⟨by simp, by simp, by simp, hanswered⟩, hrun, hlog⟩
  | succ retries ih =>
    obtain ⟨outcome, s', hrun, hlog, hanswered⟩ := store.run_attempt request n s
    cases outcome with
    | ok p =>
      refine ⟨⟨request, [], .ok p⟩, s', rfl, ⟨by simp, by simp, by simp, hanswered⟩, ?_, hlog⟩
      rw [attempts, Session.run_tryCatch, hrun]
    | error e =>
      have hcatch : s.run (store.attempts op request n (retries + 1)) =
          s'.run (if e.isRetryable then store.attempts op request (n + 1) retries
            else throw e) := by
        rw [attempts, Session.run_tryCatch, hrun]
      by_cases hretry : e.isRetryable = true
      · obtain ⟨x, s'', hrequest, hsent, hrun', hlog'⟩ := ih (n + 1) s'
        refine ⟨x.after e, s'', hrequest, ⟨?_, ?_, ?_, hsent.answered⟩, ?_, ?_⟩
        · exact List.forall_mem_cons.2 ⟨hretry, hsent.retryable⟩
        · exact Nat.succ_le_succ hsent.within
        · intro e' he' hretry'
          have hlength := hsent.spent e' he' hretry'
          simp [Submission.after, hlength]
        · rw [hcatch, if_pos hretry, hrun']
          rfl
        · subst hrequest
          rw [hlog', hlog, Submission.attempts_after, List.append_assoc]
          rfl
      · refine ⟨⟨request, [], .error e⟩, s', rfl, ⟨by simp, by simp, ?_, by simp⟩, ?_, hlog⟩
        · rintro e' he' hretry'
          cases he'
          exact absurd hretry' hretry
        · rw [hcatch, if_neg hretry, Session.run_throw]

/-- The error of a failed request, with the request. -/
def named (op : Operation) (request : op.Request) (e : StoreError) : StoreError :=
  e.withRequest op (.ok (op.requestText request))

/-- Sending a request makes one submission, and comes to what its last attempt came to. -/
theorem run_send (store : Store σ) (request : op.Request) (s : Session σ) :
    ∃ (x : Submission op) (s' : Session σ), x.request = request ∧
      store.Sent store.config.retry.pauses x ∧
      s.run (store.send op request) = (x.outcome.mapError (named op request), s') ∧
      s'.log = s.log ++ x.attempts := by
  obtain ⟨x, s', hrequest, hsent, hrun, hlog⟩ :=
    store.run_attempts request 1 store.config.retry.pauses s
  refine ⟨x, s', hrequest, hsent, ?_, hlog⟩
  rw [send, execute, Session.run_mapError, hrun]
  rfl

end Store

end ItemStore
