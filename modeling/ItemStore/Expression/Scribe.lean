import ItemStore.Expression.Basic
import ItemStore.Expression.Token
import ItemStore.Path.Parser

/-!
# Writing with placeholders

A scribe writes paths and values as placeholders and keeps what each placeholder stands for.  Names
and values draw on one supply of words, so that no word is used twice.
-/

namespace ItemStore

/-- A writer of placeholders. -/
structure Scribe where
  /-- The supply of words. -/
  source : TokenSource
  /-- What the placeholders written so far stand for. -/
  bindings : Bindings

/-- A text that is written with placeholders. -/
abbrev Writing := StateM Scribe

namespace Scribe

/-- A scribe whose words begin with a stem. -/
def new (stem : String) : Scribe := ⟨.new stem, .empty⟩

/-- The next word. -/
def word : Writing String := fun s =>
  let (w, source) := s.source.next
  (w, { s with source })

/-- Write a name as a placeholder. -/
def name (text : String) : Writing String := do
  let placeholder := "#" ++ (← word)
  modify fun s =>
    { s with bindings := { s.bindings with names := s.bindings.names.insert placeholder text } }
  return placeholder

/-- Write a value as a placeholder. -/
def value (v : AttributeValue) : Writing String := do
  let placeholder := ":" ++ (← word)
  modify fun s =>
    { s with bindings := { s.bindings with values := s.bindings.values.insert placeholder v } }
  return placeholder

/-- Write values as placeholders, from left to right. -/
def valueAll : List AttributeValue → Writing (List String)
  | [] => return []
  | v :: rest => do
    let first ← value v
    return first :: (← valueAll rest)

/-- An index of a path as it is written. -/
def indexText (n : Nat) : String := "[" ++ toString n ++ "]"

/-- Write the steps of a path after the first one. -/
def pathRest : List PathElement → Writing String
  | [] => return ""
  | .name text :: rest => do
    let placeholder ← name text
    return "." ++ placeholder ++ (← pathRest rest)
  | .index n :: rest => return indexText n ++ (← pathRest rest)

/-- Write the steps of a path; no point stands before the first one. -/
def pathElements : List PathElement → Writing String
  | .name text :: rest => do
    let placeholder ← name text
    return placeholder ++ (← pathRest rest)
  | elements => pathRest elements

/-- Write a path: every name becomes a placeholder, indexes stand for themselves. -/
def path (p : Path) : Writing String := pathElements p.elements

/-- Forget everything and start over with the first word. -/
def reset (s : Scribe) : Scribe := ⟨s.source.reset, .empty⟩

/-! ## One demand after another -/

/-- What is demanded of a scribe. -/
inductive Demand where
  /-- To write a path that is given as text. -/
  | path (text : String)
  /-- To write a value. -/
  | value (v : AttributeValue)
  /-- To start over. -/
  | reset

/-- What a demand is answered with: the text that was written, if any was, or why none could be. -/
abbrev Answer := Except StoreError (Option String)

/-- Meet a demand.  A path is read as a whole before any of it is written. -/
def meet (s : Scribe) : Demand → Answer × Scribe
  | .path text =>
    match Path.parse text with
    | .error e => (.error e, s)
    | .ok p =>
      let (written, s) := (path p).run s
      (.ok (some written), s)
  | .value v =>
    let (written, s) := (value v).run s
    (.ok (some written), s)
  | .reset => (.ok none, s.reset)

/-- Meet demands from the first to the last. -/
def meetAll (s : Scribe) : List Demand → List Answer × Scribe
  | [] => ([], s)
  | d :: rest =>
    let (first, s) := s.meet d
    let (more, s) := s.meetAll rest
    (first :: more, s)

/-! ## Whole expressions -/

/-- The expression of a text that was written. -/
def finish (s : Scribe) (text : String) : Expression := ⟨text, s.bindings⟩

/-- The expression that a writing makes with words of a stem. -/
def compile (stem : String) (w : Writing String) : Expression :=
  let (text, s) := w.run (new stem)
  s.finish text

end Scribe

end ItemStore
