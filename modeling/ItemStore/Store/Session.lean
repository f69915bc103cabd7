import ItemStore.Error
import ItemStore.Wire.Exchange

/-!
# Sessions

A provider answers requests and may change while it does.  A session is a provider's state together
with what has been sent to it so far: the attempts, in order, and how many there were.  A `Run` is a
computation that sends requests in a session and may fail; a failure keeps what the session has
become.
-/

namespace ItemStore

/-! ## Providers -/

/-- An answer to one attempt, and how long it takes. -/
structure Reply (α : Type) where
  /-- How long the answer takes. -/
  delay : Duration := ⟨0⟩
  /-- The answer. -/
  outcome : Except StoreError α

/-- What answers requests, with states of type `σ`. -/
abbrev Provider (σ : Type) :=
  (op : Operation) → op.Request → σ → Reply op.Response × σ

/-! ## What was sent -/

/-- One request that was sent, and what it came to. -/
structure Attempt where
  /-- The operation. -/
  operation : Operation
  /-- The request. -/
  request : operation.Request
  /-- The response, or why there is none. -/
  outcome : Except StoreError operation.Response

/-- How much was sent. -/
structure Counters where
  /-- Attempts that were started. -/
  attempts : Nat := 0
  /-- Deadlines that were set. -/
  armed : Nat := 0
  /-- Deadlines that were taken back. -/
  disarmed : Nat := 0
deriving DecidableEq, Repr

namespace Counters

/-- Count an attempt: its deadline is set before it and taken back after it, whatever it comes
to. -/
def tick (c : Counters) : Counters where
  attempts := c.attempts + 1
  armed := c.armed + 1
  disarmed := c.disarmed + 1

/-- What was counted since an earlier count. -/
def since (c earlier : Counters) : Counters where
  attempts := c.attempts - earlier.attempts
  armed := c.armed - earlier.armed
  disarmed := c.disarmed - earlier.disarmed

end Counters

/-! ## Sessions -/

/-- A provider's state and what was sent to it. -/
structure Session (σ : Type) where
  /-- The state of the provider. -/
  state : σ
  /-- How much was sent. -/
  counters : Counters := {}
  /-- What was sent, in order. -/
  log : List Attempt := []

/-- A computation that sends requests. -/
abbrev Run (σ α : Type) := ExceptT StoreError (StateM (Session σ)) α

/-- Run a computation in a session: what it comes to, and the session after it. -/
def Session.run {σ α : Type} (s : Session σ) (r : Run σ α) : Except StoreError α × Session σ :=
  r s

namespace Run

variable {σ α : Type}

/-- A result that needs nothing to be sent. -/
def lift (result : Except StoreError α) : Run σ α := fun s => (result, s)

/-- Change the error that a run fails with. -/
def mapError (f : StoreError → StoreError) (r : Run σ α) : Run σ α :=
  fun s => match s.run r with
    | (.ok x, s) => (.ok x, s)
    | (.error e, s) => (.error (f e), s)

end Run

end ItemStore
