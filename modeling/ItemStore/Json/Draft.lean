import ItemStore.Json.Lexeme

/-!
# JSON text as a tree

The second pass arranges the lexemes of JSON text in a tree, a `Draft`, whose strings and numbers
are not decoded yet.  It keeps the containers that are still open on a stack, so that text of any
depth is read in one walk over its lexemes.
-/

namespace ItemStore

namespace Json

/-- A JSON value whose strings and numbers are still as they were written. -/
inductive Draft where
  | null
  | bool (b : Bool)
  | number (literal : List Char)
  | string (units : List StringUnit)
  | array (elements : List Draft)
  | object (fields : List (List StringUnit × Draft))

/-- A container that is still open; what it holds so far is kept in reverse. -/
inductive OpenDraft where
  | array (done : List Draft)
  | object (done : List (List StringUnit × Draft)) (name : List StringUnit)

/-- What may come next. -/
inductive DraftState where
  /-- A value. -/
  | value
  /-- A value, or the end of the array just opened. -/
  | firstElement
  /-- A field name, or the end of the object just opened. -/
  | firstField (done : List (List StringUnit × Draft))
  /-- A field name. -/
  | fieldName (done : List (List StringUnit × Draft))
  /-- The colon after a field name. -/
  | colon (done : List (List StringUnit × Draft)) (name : List StringUnit)
  /-- A comma, or the end of the innermost container. -/
  | afterValue (inner : OpenDraft)
  /-- Nothing: the outermost value is complete. -/
  | finished (d : Draft)

namespace Draft

/-- Put a complete value where it belongs: into the innermost open container, or at the top. -/
def place (d : Draft) : List OpenDraft → DraftState × List OpenDraft
  | [] => (.finished d, [])
  | .array done :: stack => (.afterValue (.array (d :: done)), stack)
  | .object done name :: stack => (.afterValue (.object ((name, d) :: done) []), stack)

/-- Read the first lexeme of a value. -/
def startValue (stack : List OpenDraft) : Lexeme → Option (DraftState × List OpenDraft)
  | .null => some (place .null stack)
  | .bool b => some (place (.bool b) stack)
  | .number literal => some (place (.number literal) stack)
  | .string units => some (place (.string units) stack)
  | .openArray => some (.firstElement, .array [] :: stack)
  | .openObject => some (.firstField [], stack)
  | _ => none

/-- Read one lexeme. -/
def step (state : DraftState) (stack : List OpenDraft) (l : Lexeme) :
    Option (DraftState × List OpenDraft) :=
  match state, l with
  | .value, l => startValue stack l
  | .firstElement, .closeArray =>
    match stack with
    | .array _ :: rest => some (place (.array []) rest)
    | _ => none
  | .firstElement, l => startValue stack l
  | .firstField _, .closeObject => some (place (.object []) stack)
  | .firstField done, .string units => some (.colon done units, stack)
  | .fieldName done, .string units => some (.colon done units, stack)
  | .colon done name, .colon => some (.value, .object done name :: stack)
  | .afterValue (.array done), .comma => some (.value, .array done :: stack)
  | .afterValue (.array done), .closeArray => some (place (.array done.reverse) stack)
  | .afterValue (.object done _), .comma => some (.fieldName done, stack)
  | .afterValue (.object done _), .closeObject => some (place (.object done.reverse) stack)
  | _, _ => none

/-- Arrange lexemes in a tree. -/
def arrange (state : DraftState) (stack : List OpenDraft) : List Lexeme → Option Draft
  | [] =>
    match state with
    | .finished d => some d
    | _ => none
  | l :: rest =>
    match step state stack l with
    | some (state', stack') => arrange state' stack' rest
    | none => none

/-- The tree of JSON text, if it is JSON text. -/
def ofBytes? (bytes : List UInt8) : Option Draft := do
  arrange .value [] (← Lexeme.ofBytes? bytes)

end Draft

end Json

end ItemStore
