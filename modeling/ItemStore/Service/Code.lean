/-!
# Provider error codes

A provider names the kind of a failure by a code.  A response gives the code after a namespace and
a `#`; the namespace carries no meaning.
-/

namespace ItemStore

/-- The kinds of failure that a provider reports. -/
inductive ServiceCode where
  | resourceNotFound
  | conditionalCheckFailed
  | transactionCanceled
  | transactionConflict
  | transactionInProgress
  | itemCollectionSizeLimitExceeded
  | provisionedThroughputExceeded
  | requestLimitExceeded
  | throttling
  | validation
  | serialization
  | internalServerError
  | serviceUnavailable
  | accessDenied
  | unrecognizedClient
  /-- Any code that is not in this list. -/
  | unknown
deriving DecidableEq, Repr

namespace ServiceCode

/-- The name of a code. -/
def name : ServiceCode → String
  | .resourceNotFound => "ResourceNotFoundException"
  | .conditionalCheckFailed => "ConditionalCheckFailedException"
  | .transactionCanceled => "TransactionCanceledException"
  | .transactionConflict => "TransactionConflictException"
  | .transactionInProgress => "TransactionInProgressException"
  | .itemCollectionSizeLimitExceeded => "ItemCollectionSizeLimitExceededException"
  | .provisionedThroughputExceeded => "ProvisionedThroughputExceededException"
  | .requestLimitExceeded => "RequestLimitExceeded"
  | .throttling => "ThrottlingException"
  | .validation => "ValidationException"
  | .serialization => "SerializationException"
  | .internalServerError => "InternalServerError"
  | .serviceUnavailable => "ServiceUnavailable"
  | .accessDenied => "AccessDeniedException"
  | .unrecognizedClient => "UnrecognizedClientException"
  | .unknown => "Unknown"

/-- The code of a name; two codes have a second name. -/
def ofName : String → ServiceCode
  | "ResourceNotFoundException" => .resourceNotFound
  | "ConditionalCheckFailedException" => .conditionalCheckFailed
  | "TransactionCanceledException" => .transactionCanceled
  | "TransactionConflictException" => .transactionConflict
  | "TransactionInProgressException" => .transactionInProgress
  | "ItemCollectionSizeLimitExceededException" => .itemCollectionSizeLimitExceeded
  | "ProvisionedThroughputExceededException" => .provisionedThroughputExceeded
  | "RequestLimitExceeded" => .requestLimitExceeded
  | "ThrottlingException" => .throttling
  | "ValidationException" => .validation
  | "SerializationException" => .serialization
  | "InternalServerError" => .internalServerError
  | "InternalFailure" => .internalServerError
  | "ServiceUnavailable" => .serviceUnavailable
  | "ServiceUnavailableException" => .serviceUnavailable
  | "AccessDeniedException" => .accessDenied
  | "UnrecognizedClientException" => .unrecognizedClient
  | _ => .unknown

/-- What stands after the last `#` of some characters, or all of them if there is none. -/
def afterNamespace : List Char → List Char
  | [] => []
  | c :: rest =>
    if rest.contains '#' then afterNamespace rest
    else if c == '#' then rest
    else c :: rest

/-- The code of an error type with or without its namespace. -/
def ofType (errorType : String) : ServiceCode :=
  ofName (String.ofList (afterNamespace errorType.toList))

/-- Whether a code says that requests come too fast. -/
def isThrottling : ServiceCode → Bool
  | .provisionedThroughputExceeded => true
  | .requestLimitExceeded => true
  | .throttling => true
  | _ => false

/-- Whether a code blames the provider and not the request. -/
def isInternal : ServiceCode → Bool
  | .internalServerError => true
  | .serviceUnavailable => true
  | _ => false

end ServiceCode

end ItemStore
