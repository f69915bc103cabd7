import ItemStore.Proofs.Expression.Deciding
import ItemStore.Proofs.Store.Attempts
import ItemStore.Store.Chunks
import ItemStore.Store.Pages

/-!
# How a request fails

A description is refused with a bare error.  What fails later fails otherwise (`IsExecution`): with
the request that failed, or because a batch was left open.  The two never meet
(`IsRefusal.not_isExecution`), so an error tells which of the two happened.

Loops over submissions, chunks, pages and segments do nothing but send requests and go on with what
comes (`Run.Sends`, with one lemma for each loop).  So what is true of the errors of one request,
and of the attempts that it leaves in the log, is true of whole calls:

* `Run.FailsWith` is what holds of every error that a run may end with (`Sends.failsWith`);
* `Run.Logs` is what holds of every attempt that a run makes (`Sends.logs`), and `Made` is what
  holds of those of a store: they come to what the provider answers, or to a missed deadline.
-/

namespace ItemStore

/-! ## Errors of executions -/

namespace StoreError

/-- An error with which a request fails, or a batch that took too many of them. -/
inductive IsExecution : StoreError → Prop where
  | request (op : Operation) (text : String) (source : StoreError) :
      IsExecution (.request op text source)
  | unprocessed (op : Operation) (remaining attempts : Nat) :
      IsExecution (.unprocessed op remaining attempts)

/-- A refusal is never mistaken for the failure of a request. -/
theorem IsRefusal.not_isExecution {e : StoreError} (h : e.IsRefusal) : ¬ e.IsExecution := by
  rintro (_ | _) <;> cases h

/-- An error with a request is that of an execution, whatever the error was before. -/
theorem isExecution_withRequest (e : StoreError) (op : Operation)
    (request : Except String String) : (e.withRequest op request).IsExecution := by
  cases e <;> exact .request _ _ _

end StoreError

/-! ## Runs -/

namespace Run

variable {σ α β : Type} {P : StoreError → Prop}

/-- Every error of a run is one that `P` holds of. -/
def FailsWith (P : StoreError → Prop) (r : Run σ α) : Prop :=
  ∀ (s s' : Session σ) (e : StoreError), s.run r = (.error e, s') → P e

theorem failsWith_pure (x : α) : FailsWith P (pure x : Run σ α) := by
  intro s s' e h
  cases h

theorem failsWith_throw {e : StoreError} (h : P e) : FailsWith P (throw e : Run σ α) := by
  intro s s' e' herror
  cases herror
  exact h

/-- A run in two steps ends with an error of the first step, or of what comes after its result. -/
theorem FailsWith.bind {r : Run σ α} {f : α → Run σ β} (hr : FailsWith P r)
    (hf : ∀ x, FailsWith P (f x)) : FailsWith P (r >>= f) := by
  intro s s' e h
  rw [Session.run_bind] at h
  split at h
  · exact hf _ _ _ _ h
  · rename_i hfailed
    cases h
    exact hr _ _ _ hfailed

/-- A run puts attempts at the end of the log, and each is one that `Q` holds of. -/
def Logs (Q : Attempt → Prop) (r : Run σ α) : Prop :=
  ∀ s : Session σ, ∃ made, (s.run r).2.log = s.log ++ made ∧ ∀ a ∈ made, Q a

variable {Q : Attempt → Prop}

theorem logs_pure (x : α) : Logs Q (pure x : Run σ α) :=
  fun s => ⟨[], by rw [Session.run_pure, List.append_nil], by simp⟩

/-- A failure leaves the log as it was. -/
theorem logs_throw (e : StoreError) : Logs Q (throw e : Run σ α) :=
  fun s => ⟨[], by rw [Session.run_throw, List.append_nil], by simp⟩

/-- What the first step adds to the log stays in front of what the second one adds. -/
theorem Logs.bind {r : Run σ α} {f : α → Run σ β} (hr : Logs Q r) (hf : ∀ x, Logs Q (f x)) :
    Logs Q (r >>= f) := by
  intro s
  obtain ⟨made, hlog, hmade⟩ := hr s
  rw [Session.run_bind]
  cases hrun : s.run r with
  | mk result s' =>
    rw [hrun] at hlog
    cases result with
    | error e => exact ⟨made, hlog, hmade⟩
    | ok x =>
      obtain ⟨more, hlog', hmore⟩ := hf x s'
      refine ⟨made ++ more, ?_, List.forall_mem_append.2 ⟨hmade, hmore⟩⟩
      rw [hlog', hlog, List.append_assoc]

/-- Runs that do nothing but send requests, go on with what comes, and give up a batch. -/
inductive Sends (store : Store σ) : {α : Type} → Run σ α → Prop where
  | pure {α : Type} (x : α) : Sends store (Pure.pure x : Run σ α)
  | throw {α : Type} {e : StoreError} : e.IsExecution →
      Sends store (MonadExcept.throw e : Run σ α)
  | send (op : Operation) (request : op.Request) : Sends store (store.send op request)
  | bind {α β : Type} {r : Run σ α} {f : α → Run σ β} : Sends store r →
      (∀ x, Sends store (f x)) → Sends store (r >>= f)

end Run

namespace Store

variable {σ : Type} {op : Operation} (store : Store σ)

/-! ## One request -/

/-- A request fails with an error that has the request in it. -/
theorem send_failsWith (op : Operation) (request : op.Request) :
    Run.FailsWith StoreError.IsExecution (store.send op request) := by
  intro s s' e h
  obtain ⟨x, s'', -, -, hrun, -⟩ := store.run_send request s
  rw [hrun] at h
  cases houtcome : x.outcome with
  | ok p =>
    rw [houtcome] at h
    cases h
  | error source =>
    rw [houtcome] at h
    cases h
    exact StoreError.isExecution_withRequest ..

/-- An attempt that came to what the provider of a store answered, or to a missed deadline. -/
def Made (a : Attempt) : Prop :=
  ∃ n state, a.outcome =
    settle (store.config.deadline n) (store.provider a.operation a.request state).1

/-- What a request adds to the log is one entry for each attempt at it. -/
theorem send_logs (op : Operation) (request : op.Request) :
    Run.Logs store.Made (store.send op request) := by
  intro s
  obtain ⟨j, -, -, -, -, hrun⟩ := store.run_attempts_until request s 0 store.config.retry.pauses
  rw [afterAttempts_zero] at hrun
  rw [send, execute, Session.run_mapError, hrun]
  refine ⟨_, rfl, fun a ha => ?_⟩
  obtain ⟨outcome, houtcome, rfl⟩ := List.mem_map.1 ha
  obtain ⟨i, -, rfl⟩ := List.mem_map.1 houtcome
  exact ⟨i, _, rfl⟩

end Store

namespace Run

variable {σ α : Type} {store : Store σ} {r : Run σ α}

/-- Whatever the loop around the requests, an error of one of them is how the run fails. -/
theorem Sends.failsWith (h : Sends store r) : FailsWith StoreError.IsExecution r := by
  induction h with
  | pure x => exact failsWith_pure x
  | throw he => exact failsWith_throw he
  | send op request => exact store.send_failsWith op request
  | bind _ _ ihr ihf => exact ihr.bind ihf

/-- Every attempt of such a run is an attempt at one of its requests. -/
theorem Sends.logs (h : Sends store r) : Logs store.Made r := by
  induction h with
  | pure x => exact logs_pure x
  | throw he => exact logs_throw _
  | send op request => exact store.send_logs op request
  | bind _ _ ihr ihf => exact ihr.bind ihf

end Run

namespace Store

variable {σ : Type} {op : Operation} (store : Store σ)

/-! ## Batches -/

/-- A chunk fails with one of its requests, or when its submissions are used up. -/
theorem submit_sends (kind : BatchKind op) (chunk request : op.Request) (merged : op.Response)
    (n pauses : Nat) : Run.Sends store (store.submit kind chunk request merged n pauses) := by
  induction pauses generalizing request merged n with
  | zero =>
    refine (Run.Sends.send op request).bind fun response => ?_
    dsimp only
    split
    · exact .pure _
    · exact .throw (.unprocessed _ _ _)
  | succ pauses ih =>
    refine (Run.Sends.send op request).bind fun response => ?_
    dsimp only
    split
    · exact .pure _
    · exact ih _ _ _

/-- Chunks are submitted one after another, up to the first that fails. -/
theorem runChunks_sends (kind : BatchKind op) (merged : op.Response) (chunks : List op.Request) :
    Run.Sends store (store.runChunks kind merged chunks) := by
  induction chunks generalizing merged with
  | nil => exact .pure _
  | cons chunk rest ih => exact (store.submit_sends kind chunk chunk _ _ _).bind fun _ => ih _

theorem runBatch_sends (kind : BatchKind op) (batch : op.Request) :
    Run.Sends store (store.runBatch kind batch) :=
  store.runChunks_sends kind _ _

/-- A batch fails with the request of a chunk or because a chunk is given up, and in no other way.
-/
theorem runBatch_failsWith (kind : BatchKind op) (batch : op.Request) :
    Run.FailsWith StoreError.IsExecution (store.runBatch kind batch) :=
  (store.runBatch_sends kind batch).failsWith

/-! ## Pages -/

/-- Collecting pages does nothing but send the requests for them. -/
theorem drainAfter_sends (kind : PageKind op) (limit : Option Nat) (recursive : Bool)
    (budget : Nat) (request : op.Request) (collected : PageResult) :
    Run.Sends store (store.drainAfter kind limit recursive budget request collected) := by
  induction budget generalizing request collected with
  | zero => exact .pure _
  | succ budget ih =>
    refine (Run.Sends.send op request).bind fun response => ?_
    dsimp only
    split
    · exact .pure _
    · split
      · exact .pure _
      · split
        · exact ih _ _
        · exact .pure _

/-- A query for nothing sends nothing; any other one collects pages. -/
theorem runQuery_sends (options : PageOptions) (budget : Nat) (request : QueryRequest) :
    Run.Sends store (store.runQuery options budget request) := by
  unfold runQuery
  split
  · exact .pure _
  · exact store.drainAfter_sends _ _ _ _ _ _

/-- A query fails with the request for one of its pages. -/
theorem runQuery_failsWith (options : PageOptions) (budget : Nat) (request : QueryRequest) :
    Run.FailsWith StoreError.IsExecution (store.runQuery options budget request) :=
  (store.runQuery_sends options budget request).failsWith

/-- Segments are collected one after another, each as a course of pages. -/
theorem drainSegments_sends (limit : Option Nat) (recursive : Bool) (budget : Nat)
    (collected : PageResult) (requests : List ScanRequest) :
    Run.Sends store (store.drainSegments limit recursive budget collected requests) := by
  induction requests generalizing collected with
  | nil => exact .pure _
  | cons request rest ih =>
    refine (store.drainAfter_sends _ _ _ _ _ _).bind fun result => ?_
    split
    · exact .pure _
    · exact ih _

/-- A scan is one course of pages or one for each segment. -/
theorem runScan_sends (options : PageOptions) (requested budget : Nat) (request : ScanRequest) :
    Run.Sends store (store.runScan options requested budget request) := by
  unfold runScan
  split
  · exact .pure _
  · dsimp only
    split
    · exact (store.drainAfter_sends _ _ _ _ _ _).bind fun _ => .pure _
    · exact (store.drainSegments_sends _ _ _ _ _).bind fun _ => .pure _

/-- A scan fails with the request for a page of one of its segments. -/
theorem runScan_failsWith (options : PageOptions) (requested budget : Nat)
    (request : ScanRequest) :
    Run.FailsWith StoreError.IsExecution (store.runScan options requested budget request) :=
  (store.runScan_sends options requested budget request).failsWith

end Store

end ItemStore
