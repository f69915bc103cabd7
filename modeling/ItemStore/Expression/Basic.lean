import ItemStore.Attribute.Basic

/-!
# Expressions

The text of an expression holds placeholders only.  What they stand for is kept beside it, in the
bindings that a request carries along with the text.
-/

namespace ItemStore

/-- What placeholders stand for. -/
structure Bindings where
  /-- The attribute names of the placeholders for names. -/
  names : Keyed String
  /-- The values of the placeholders for values. -/
  values : Keyed AttributeValue

namespace Bindings

/-- No placeholder stands for anything. -/
def empty : Bindings := ⟨.empty, .empty⟩

instance : Inhabited Bindings := ⟨empty⟩

instance : BEq Bindings := ⟨fun a b => a.names == b.names && a.values == b.values⟩

/-- The bindings of both; where both bind a placeholder, the second one holds. -/
def union (a b : Bindings) : Bindings := ⟨a.names.union b.names, a.values.union b.values⟩

end Bindings

/-- A text with placeholders and what they stand for. -/
structure Expression where
  /-- The text. -/
  text : String
  /-- What its placeholders stand for. -/
  bindings : Bindings

namespace Expression

/-- Whether an expression has no text. -/
def isEmpty (e : Expression) : Bool := e.text.isEmpty

instance : BEq Expression := ⟨fun a b => a.text == b.text && a.bindings == b.bindings⟩

end Expression

end ItemStore
