import ItemStore.Duration
import ItemStore.Operation
import ItemStore.Service.Error

/-!
# Errors

A call fails because its description makes no sense, because the configuration does not, or
because an attempt failed.  `StoreError` lists the causes; `StoreError.message` has their texts.
The causes for which a description is refused are listed once more in `Invalidity`.
-/

namespace ItemStore

/-! ## Invalid descriptions -/

/-- Why a description is refused before anything is sent. -/
inductive Invalidity where
  /-- A conjunction of nothing. -/
  | emptyAll
  /-- A disjunction of nothing. -/
  | emptyAny
  /-- A choice among no values. -/
  | emptyOneOf
  /-- An update action that only works on a whole attribute, at a path inside one. -/
  | nestedTarget (keyword path : String)
  /-- A key with a number of components other than one or two. -/
  | keySize (components : Nat)
  /-- A put without an item. -/
  | emptyPut
  /-- An update without actions. -/
  | noActions
  /-- A query without a key condition. -/
  | noKeyCondition
  /-- A condition check without a condition. -/
  | noCheckedCondition
  /-- A transaction without items. -/
  | noTransactionItems (transaction : String)
  /-- A transaction with too many items. -/
  | manyTransactionItems (transaction : String) (count most : Nat)
  /-- An item made from something other than an object. -/
  | notAnItem (descriptor : String)
  /-- A number whose text is no number. -/
  | notANumber (text : String)
deriving DecidableEq, Repr

/-- The text of a refusal. -/
def Invalidity.message : Invalidity → String
  | .emptyAll => "AND needs at least one condition"
  | .emptyAny => "OR needs at least one condition"
  | .emptyOneOf => "IN needs at least one value"
  | .nestedTarget keyword path =>
    keyword ++ " on \x60" ++ path ++ "\x60 requires a top-level attribute"
  | .keySize n => "key must have one or two components, got " ++ toString n
  | .emptyPut => "put item is empty"
  | .noActions => "update has no operations"
  | .noKeyCondition => "query has no key condition"
  | .noCheckedCondition => "condition check has no condition"
  | .noTransactionItems transaction => transaction ++ " has no items"
  | .manyTransactionItems transaction count most =>
    transaction ++ " has " ++ toString count ++ " items, at most " ++ toString most ++
      " are allowed"
  | .notAnItem descriptor => "an item must encode to a map, got " ++ descriptor
  | .notANumber text => "cannot marshal value: \x60" ++ text ++ "\x60 is not a number"

/-! ## All errors -/

/-- Why a call failed. -/
inductive StoreError where
  /-- A path that cannot be read. -/
  | malformedPath (path reason : String)
  /-- A description that makes no sense; nothing was sent. -/
  | validation (text : String)
  /-- A configuration that makes no sense. -/
  | configuration (text : String)
  /-- An attempt that took longer than it may. -/
  | deadlineExceeded (deadline : Duration)
  /-- A request that did not arrive, or an answer that did not. -/
  | transport (text : String)
  /-- An error that the provider reported. -/
  | service (e : ServiceError)
  /-- A batch that still had open entries when its submissions were used up. -/
  | unprocessed (operation : Operation) (remaining attempts : Nat)
  /-- A failure together with the request that caused it. -/
  | request (operation : Operation) (request : String) (source : StoreError)
deriving Repr

namespace StoreError

/-- The error for an invalid description. -/
def invalid (why : Invalidity) : StoreError := .validation why.message

/-- The text of an error. -/
def message : StoreError → String
  | .malformedPath path reason => "malformed attribute path \x60" ++ path ++ "\x60: " ++ reason
  | .validation text => "validation error: " ++ text
  | .configuration text => "configuration error: " ++ text
  | .deadlineExceeded deadline => "attempt deadline of " ++ deadline.describe ++ " exceeded"
  | .transport text => "transport error: " ++ text
  | .service e => e.describe
  | .unprocessed operation remaining attempts =>
    operation.name ++ " left " ++ toString remaining ++ " unprocessed entries after " ++
      toString attempts ++ " attempts"
  | .request operation _ source => operation.name ++ " request failed: " ++ source.message

/-- Whether another attempt may succeed. -/
def isRetryable : StoreError → Bool
  | .deadlineExceeded _ => true
  | .transport _ => true
  | .service e => e.isTransient
  | .request _ _ source => source.isRetryable
  | _ => false

/-- The provider error behind a failure, if there is one. -/
def service? : StoreError → Option ServiceError
  | .service e => some e
  | .request _ _ source => source.service?
  | _ => none

/-- The text that stands for a request which cannot be written down. -/
def unwritable (reason : String) : String := "<request not serializable: " ++ reason ++ ">"

/-- Name the request that caused an error.  An error that names one already stays as it is. -/
def withRequest (e : StoreError) (operation : Operation) (request : Except String String) :
    StoreError :=
  match e with
  | .request _ _ _ => e
  | _ =>
    .request operation (match request with
      | .ok text => text
      | .error reason => unwritable reason) e

end StoreError

end ItemStore
