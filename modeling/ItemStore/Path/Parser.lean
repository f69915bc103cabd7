import ItemStore.Error
import ItemStore.Number.Decimal
import ItemStore.Number.Whole
import ItemStore.Path.Basic

/-!
# Reading attribute paths

A path is read character by character.  A name runs up to a point or an opening bracket; a
backslash takes the special meaning from the character after it, and stands for itself before any
other character and at the end.  An index is decimal digits between brackets, after a name or
another index, and its value fits a word of 64 bits.
-/

namespace ItemStore

/-- Why a text is no path. -/
inductive PathFault where
  /-- A name without characters. -/
  | emptyName
  /-- An opening bracket where no name went before. -/
  | indexWithoutName
  /-- Brackets with nothing between them. -/
  | emptyIndex
  /-- An index that does not fit a word. -/
  | largeIndex (digits : String)
  /-- A character between brackets that is no digit. -/
  | nonDigit (c : Char)
  /-- A character after an index that begins no further step. -/
  | unexpected (c : Char)
  /-- An opening bracket that is never closed. -/
  | unterminatedIndex
deriving DecidableEq, Repr

/-- The text of a fault. -/
def PathFault.message : PathFault → String
  | .emptyName => "empty path segment"
  | .indexWithoutName => "list index must follow an attribute name"
  | .emptyIndex => "empty list index"
  | .largeIndex digits => "list index \x60" ++ digits ++ "\x60 too large"
  | .nonDigit c => "non-digit \x60" ++ String.singleton c ++ "\x60 in list index"
  | .unexpected c => "unexpected \x60" ++ String.singleton c ++ "\x60 after list index"
  | .unterminatedIndex => "unterminated list index"

/-- Where in a path the next character stands.  What has been read of a name or of an index is kept
in reverse. -/
inductive PathState where
  | inName (read : List Char)
  | afterBackslash (read : List Char)
  | inIndex (digits : List Char)
  | afterIndex
deriving DecidableEq, Repr

namespace Path

/-- The step to the name whose characters were read. -/
def nameOf (read : List Char) : PathElement := .name (String.ofList read.reverse)

/-- Close an index. -/
def closeIndex (digits : List Char) : Except PathFault PathElement :=
  if digits.isEmpty then .error .emptyIndex
  else
    let n := digitsValue digits.reverse
    if n < twoTo 64 then .ok (.index n) else .error (.largeIndex (String.ofList digits.reverse))

/-- Read one character: the step that it completes, if any, and where the next one stands. -/
def step (state : PathState) (c : Char) : Except PathFault (Option PathElement × PathState) :=
  match state with
  | .inName read =>
    if c = '\\' then .ok (none, .afterBackslash read)
    else if c = '.' then
      if read.isEmpty then .error .emptyName else .ok (some (nameOf read), .inName [])
    else if c = '[' then
      if read.isEmpty then .error .indexWithoutName else .ok (some (nameOf read), .inIndex [])
    else .ok (none, .inName (c :: read))
  | .afterBackslash read =>
    .ok (none, .inName (if isSpecial c then c :: read else c :: '\\' :: read))
  | .inIndex digits =>
    if c = ']' then do
      let e ← closeIndex digits
      .ok (some e, .afterIndex)
    else if isDecimalDigit c then .ok (none, .inIndex (c :: digits))
    else .error (.nonDigit c)
  | .afterIndex =>
    if c = '.' then .ok (none, .inName [])
    else if c = '[' then .ok (none, .inIndex [])
    else .error (.unexpected c)

/-- End the text: the step that is complete then, if any. -/
def finish : PathState → Except PathFault (List PathElement)
  | .inName read => if read.isEmpty then .error .emptyName else .ok [nameOf read]
  | .afterBackslash read => .ok [nameOf ('\\' :: read)]
  | .inIndex _ => .error .unterminatedIndex
  | .afterIndex => .ok []

/-- Read the characters from a place in a path on. -/
def scan (state : PathState) : List Char → Except PathFault (List PathElement)
  | [] => finish state
  | c :: rest => do
    let (done, next) ← step state c
    let more ← scan next rest
    .ok (done.toList ++ more)

/-- Read a path. -/
def ofText? (text : String) : Except PathFault Path := do
  .ok ⟨← scan (.inName []) text.toList⟩

/-- Read a path, with the error that a call reports for a text that is none. -/
def parse (text : String) : Except StoreError Path :=
  match ofText? text with
  | .ok p => .ok p
  | .error fault => .error (.malformedPath text fault.message)

end Path

end ItemStore
