import ItemStore.Error
import ItemStore.Expression.Scribe
import ItemStore.Path.Parser

/-!
# Projections

A projection lists the paths whose values a read returns.  A path that is asked for again is
written once, in its first place.
-/

namespace ItemStore

namespace Projection

/-- A list without the elements that came before. -/
def distinct {α : Type} [BEq α] (xs : List α) : List α := xs.eraseDups

/-- Write paths, from left to right. -/
def writePaths : List Path → Writing (List String)
  | [] => return []
  | p :: rest => do
    let first ← Scribe.path p
    return first :: (← writePaths rest)

/-- The expression of a projection, with words that begin with a stem. -/
def compile (paths : List String) (stem : String) : Except StoreError Expression := do
  let read ← (distinct paths).mapM Path.parse
  return Scribe.compile stem (do return ", ".intercalate (← writePaths read))

end Projection

end ItemStore
