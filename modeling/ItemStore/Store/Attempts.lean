import ItemStore.Store.Basic

/-!
# Attempts

A request is sent until it succeeds, fails for good, or has been sent as often as the configuration
allows.  Every attempt has a deadline, and a later attempt has a longer one.  Pauses between
attempts leave no trace in a session, so only their number counts here.

`attempts` is the loop over attempts; `execute` starts it, and `send` also names the request in the
error that the last attempt failed with.
-/

namespace ItemStore

namespace Store

variable {σ : Type}

/-- What an answer comes to under a deadline. -/
def settle {α : Type} (deadline : Duration) (reply : Reply α) : Except StoreError α :=
  if deadline.nanos < reply.delay.nanos then .error (.deadlineExceeded deadline)
  else reply.outcome

/-- Make the `n`-th attempt at a request. -/
def attempt (store : Store σ) (op : Operation) (request : op.Request) (n : Nat) :
    Run σ op.Response := fun s =>
  let (reply, state) := store.provider op request s.state
  let outcome := settle (store.config.deadline n) reply
  (outcome,
    { state
      counters := s.counters.tick
      log := s.log ++ [{ operation := op, request, outcome }] })

/-- Make attempts at a request, beginning with the `n`-th, until one succeeds or fails for good; at
most `retries` more may follow the first of them. -/
def attempts (store : Store σ) (op : Operation) (request : op.Request) (n : Nat) :
    (retries : Nat) → Run σ op.Response
  | 0 => store.attempt op request n
  | retries + 1 =>
    tryCatch (store.attempt op request n) fun e =>
      if e.isRetryable then store.attempts op request (n + 1) retries else throw e

/-- Send a request as often as the configuration allows. -/
def execute (store : Store σ) (op : Operation) (request : op.Request) : Run σ op.Response :=
  store.attempts op request 1 store.config.retry.pauses

/-- Send a request as often as the configuration allows; a failure names the request. -/
def send (store : Store σ) (op : Operation) (request : op.Request) : Run σ op.Response :=
  (store.execute op request).mapError fun e => e.withRequest op (.ok (op.requestText request))

end Store

end ItemStore
