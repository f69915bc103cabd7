import ItemStore.Call.Check
import ItemStore.Call.Delete
import ItemStore.Call.Get
import ItemStore.Call.Put
import ItemStore.Call.Update

/-!
# Transactions

A transaction does all of its actions or none.  Refused are a number of actions that is zero or too
large, and then the first action that is refused on its own.
-/

namespace ItemStore

namespace Call

/-- The most actions in a transaction. -/
def mostActions : Nat := 100

/-- Accept a number of actions. -/
def checkActions (transaction : String) (count : Nat) : Except StoreError Unit :=
  if count = 0 then .error (.invalid (.noTransactionItems transaction))
  else if mostActions < count then
    .error (.invalid (.manyTransactionItems transaction count mostActions))
  else .ok ()

/-- An action in a writing transaction. -/
inductive Action where
  | check (c : Check)
  | put (p : Put)
  | delete (d : Delete)
  | update (u : Update)

/-- The action as it is sent. -/
def Action.request : Action → Except StoreError TransactWriteItem
  | .check c => do return { check := some (← c.inTransaction) }
  | .put p => do return { put := some (← p.inTransaction) }
  | .delete d => do return { delete := some (← d.inTransaction) }
  | .update u => do return { update := some (← u.inTransaction) }

/-- Write items together. -/
structure TransactWrite where
  /-- The actions. -/
  actions : List Action := []
  /-- A token under which a repeated request counts once. -/
  token : Option String := none
  /-- How consumed capacity is reported. -/
  returnCapacity : Option ReturnCapacity := none
  /-- Whether the sizes of item collections are reported. -/
  returnMetrics : Option ReturnMetrics := none

/-- The request for a writing transaction. -/
def TransactWrite.compile (t : TransactWrite) : Except StoreError TransactWriteRequest := do
  checkActions "transact write" t.actions.length
  let items ← t.actions.mapM Action.request
  return {
    items
    token := t.token
    returnCapacity := t.returnCapacity
    returnMetrics := t.returnMetrics }

/-- Read items together. -/
structure TransactRead where
  /-- The reads. -/
  reads : List Get := []
  /-- How consumed capacity is reported. -/
  returnCapacity : Option ReturnCapacity := none

/-- The request for a reading transaction. -/
def TransactRead.compile (t : TransactRead) : Except StoreError TransactGetRequest := do
  checkActions "transact get" t.reads.length
  let items ← t.reads.mapM fun g => do return { get := ← g.inTransaction }
  return { items, returnCapacity := t.returnCapacity }

end Call

end ItemStore
