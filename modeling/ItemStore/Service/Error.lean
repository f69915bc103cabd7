import ItemStore.Json.Reader
import ItemStore.Service.Code
import ItemStore.Service.Status

/-!
# Provider errors

A failed response has a status and a body.  The body says in JSON what went wrong: an object with
an error type and a message, or an array of the two.  Fields that are not asked for only have to be
well formed.  A body that says nothing of the kind becomes the message itself, so that the status
still tells whether a later attempt may succeed.
-/

namespace ItemStore

/-- An error that a provider reported. -/
structure ServiceError where
  /-- What went wrong. -/
  code : ServiceCode
  /-- The words of the provider. -/
  message : String
  /-- The HTTP status of the response. -/
  status : Nat
deriving DecidableEq, Repr

namespace ServiceError

/-- An error with the usual status of its code. -/
def ofCode (code : ServiceCode) (message : String) : ServiceError :=
  { code, message, status := if code.isInternal then 500 else 400 }

/-- The same error with another status. -/
def withStatus (e : ServiceError) (status : Nat) : ServiceError := { e with status }

/-- Whether a later attempt may succeed: the provider failed, or requests came too fast. -/
def isTransient (e : ServiceError) : Bool :=
  e.code.isThrottling || e.code.isInternal || Status.isServerError e.status

/-- The text of an error. -/
def describe (e : ServiceError) : String :=
  e.code.name ++ " (" ++ Status.describe e.status ++ "): " ++ e.message

/-! ## Error bodies -/

/-- What an error body says. -/
structure Body where
  /-- The error type, if the body names one. -/
  errorType : Option String
  /-- The message, if the body has one. -/
  message : Option String

namespace Body

/-- The text of a string in a body. -/
def text? : Json.Draft → Option String
  | .string units => Json.StringUnit.text? units
  | _ => none

/-- Read the fields of a body.  The error type and the message may stand once each, the message
under either of its names; a field name that cannot be decoded spoils the body. -/
def ofFields? (body : Body) : List (List Json.StringUnit × Json.Draft) → Option Body
  | [] => some body
  | (units, d) :: rest => do
    let name ← Json.StringUnit.text? units
    if name = "__type" then
      match body.errorType with
      | some _ => none
      | none => ofFields? { body with errorType := some (← text? d) } rest
    else if name = "message" || name = "Message" then
      match body.message with
      | some _ => none
      | none => ofFields? { body with message := some (← text? d) } rest
    else ofFields? body rest

/-- Read a body. -/
def ofDraft? : Json.Draft → Option Body
  | .object fields => ofFields? ⟨none, none⟩ fields
  | .array [] => some ⟨none, none⟩
  | .array [d] => do some ⟨some (← text? d), none⟩
  | .array [d, m] => do some ⟨some (← text? d), some (← text? m)⟩
  | _ => none

/-- Read a body from its bytes. -/
def ofBytes? (bytes : List UInt8) : Option Body := do ofDraft? (← Json.Draft.ofBytes? bytes)

end Body

/-- The error that a failed response reports. -/
def ofResponse (status : Nat) (bytes : List UInt8) : ServiceError :=
  match Body.ofBytes? bytes with
  | some body =>
    { code := .ofType (body.errorType.getD ""), message := body.message.getD "", status }
  | none => { code := .unknown, message := Utf8.decodeLossy bytes, status }

end ServiceError

end ItemStore
