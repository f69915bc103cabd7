import ItemStore.Expression.Bundle

/-!
# Descriptions of calls

A call on a store is described by a structure of its own kind, and `compile` makes the request of a
description or refuses it.  This module has what the kinds share: the checks on keys and items, and
the condition that a list of conditions stands for.
-/

namespace ItemStore

namespace Call

/-- Accept a key, which has a component for the partition and may have one for the order in it. -/
def checkKey (key : Item) : Except StoreError Unit :=
  if key.size = 1 ∨ key.size = 2 then .ok () else .error (.invalid (.keySize key.size))

/-- Accept an item to put, which has at least one attribute. -/
def checkItem (item : Item) : Except StoreError Unit :=
  if item.isEmpty then .error (.invalid .emptyPut) else .ok ()

/-- The bundle of a condition that guards a write, if there is one. -/
def guardBundle (conditions : List (Condition String)) : Except StoreError Bundle := do
  return (← Bundle.empty.withCondition .condition (Condition.chain conditions)).compact

/-- The bundle of a projection. -/
def projectionBundle (projection : List String) : Except StoreError Bundle := do
  return (← Bundle.empty.withProjection projection).compact

end Call

end ItemStore
