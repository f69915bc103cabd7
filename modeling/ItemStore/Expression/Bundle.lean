import ItemStore.Expression.Compaction
import ItemStore.Expression.Condition
import ItemStore.Expression.Projection
import ItemStore.Expression.Update

/-!
# The expressions of one request

A request has a slot for each kind of expression and one set of bindings for all of them.  Every
slot has a stem of its own for placeholders, so that the expressions of different slots can be
compiled apart and put together without a clash.
-/

namespace ItemStore

/-- What an expression is for. -/
inductive Slot where
  | keyCondition
  | condition
  | filter
  | update
  | projection
deriving DecidableEq, Repr

namespace Slot

/-- Every slot. -/
def all : List Slot := [.keyCondition, .condition, .filter, .update, .projection]

/-- What the words of the placeholders of a slot begin with. -/
def stem : Slot → String
  | .keyCondition => "key_"
  | .condition => "cond_"
  | .filter => "filter_"
  | .update => "upd_"
  | .projection => "proj_"

end Slot

/-- The expressions of a request. -/
structure Bundle where
  /-- The texts, in the order in which they were put in. -/
  texts : List (Slot × String)
  /-- What the placeholders of all texts stand for. -/
  bindings : Bindings

namespace Bundle

/-- No expression at all. -/
def empty : Bundle := ⟨[], .empty⟩

/-- Put an expression into a slot, in place of the one that is there.  An expression without text
changes nothing. -/
def insert (b : Bundle) (slot : Slot) (e : Expression) : Bundle :=
  if e.isEmpty then b
  else
    { texts := b.texts.filter (fun t => t.1 ≠ slot) ++ [(slot, e.text)]
      bindings := b.bindings.union e.bindings }

/-- The text in a slot. -/
def text? (b : Bundle) (slot : Slot) : Option String := b.texts.lookup slot

/-- Take the text out of a slot; its bindings stay. -/
def take (b : Bundle) (slot : Slot) : Option String × Bundle :=
  (b.text? slot, { b with texts := b.texts.filter fun t => t.1 ≠ slot })

/-- Make the bindings canonical, across all texts. -/
def compact (b : Bundle) : Bundle :=
  let (texts, bindings) := Compaction.compact (b.texts.map (·.2)) b.bindings
  { texts := (b.texts.map (·.1)).zip texts, bindings }

/-! ## Compiling into slots -/

/-- Compile a condition into a slot, if there is one. -/
def withCondition (b : Bundle) (slot : Slot) (c : Option (Condition String)) :
    Except StoreError Bundle :=
  match c with
  | none => .ok b
  | some c => do return b.insert slot (← c.compile slot.stem)

/-- Compile an update. -/
def withUpdate (b : Bundle) (actions : List (UpdateAction String)) : Except StoreError Bundle := do
  return b.insert .update (← Update.compile actions Slot.update.stem)

/-- Compile a projection. -/
def withProjection (b : Bundle) (paths : List String) : Except StoreError Bundle := do
  return b.insert .projection (← Projection.compile paths Slot.projection.stem)

end Bundle

end ItemStore
