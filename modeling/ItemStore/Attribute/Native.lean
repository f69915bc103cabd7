import ItemStore.Attribute.Basic
import ItemStore.Number.Layout

/-!
# Attribute values from native values

Every native value has one attribute value.  Numbers are written in full, without a power of ten;
an absent value is the null marker.
-/

namespace ItemStore

/-- Types whose values are attribute values. -/
class ToAttribute (α : Type) where
  /-- The attribute value of a native value. -/
  toAttribute : α → AttributeValue

namespace AttributeValue

/-- The text of a double as an attribute number. -/
def floatText (x : Float) : String := Layout.plain.float x

instance : ToAttribute AttributeValue := ⟨id⟩

instance : ToAttribute String := ⟨.string⟩

instance : ToAttribute Bool := ⟨.bool⟩

instance : ToAttribute Int := ⟨fun n => .number (toString n)⟩

instance : ToAttribute Nat := ⟨fun n => .number (toString n)⟩

instance : ToAttribute Float := ⟨fun x => .number (floatText x)⟩

instance : ToAttribute (List UInt8) := ⟨.binary⟩

instance {α : Type} [ToAttribute α] : ToAttribute (List α) :=
  ⟨fun xs => .list (xs.map ToAttribute.toAttribute)⟩

instance {α : Type} [ToAttribute α] : ToAttribute (Keyed α) :=
  ⟨fun c => ofItem (c.mapWithKey fun _ => ToAttribute.toAttribute)⟩

instance {α : Type} [ToAttribute α] : ToAttribute (Option α) :=
  ⟨fun x => x.elim (.null true) ToAttribute.toAttribute⟩

/-- The number set of doubles. -/
def ofFloats (xs : List Float) : AttributeValue := .numberSet (xs.map floatText)

end AttributeValue

end ItemStore
