import ItemStore.Wire.Codec

/-!
# Choices in requests

Settings of a request that choose among a few values, each with the label under which a provider
knows it.
-/

namespace ItemStore

/-! ## What a write returns -/

/-- Which attributes a write returns. -/
inductive ReturnValues where
  | none
  | allOld
  | updatedOld
  | allNew
  | updatedNew
deriving DecidableEq, Repr

namespace ReturnValues

instance : Inhabited ReturnValues := ⟨.none⟩

/-- The label of a choice. -/
def label : ReturnValues → String
  | .none => "NONE"
  | .allOld => "ALL_OLD"
  | .updatedOld => "UPDATED_OLD"
  | .allNew => "ALL_NEW"
  | .updatedNew => "UPDATED_NEW"

/-- The choice as its label. -/
def codec : Codec ReturnValues := .labels label [.none, .allOld, .updatedOld, .allNew, .updatedNew]

end ReturnValues

/-- What a write returns when its condition does not hold. -/
inductive ReturnOnFailure where
  | allOld
  | none
deriving DecidableEq, Repr

namespace ReturnOnFailure

instance : Inhabited ReturnOnFailure := ⟨.none⟩

/-- The label of a choice. -/
def label : ReturnOnFailure → String
  | .allOld => "ALL_OLD"
  | .none => "NONE"

/-- The choice as its label. -/
def codec : Codec ReturnOnFailure := .labels label [.allOld, .none]

end ReturnOnFailure

/-! ## What is reported -/

/-- How consumed capacity is reported. -/
inductive ReturnCapacity where
  | indexes
  | total
  | none
deriving DecidableEq, Repr

namespace ReturnCapacity

instance : Inhabited ReturnCapacity := ⟨.none⟩

/-- The label of a choice. -/
def label : ReturnCapacity → String
  | .indexes => "INDEXES"
  | .total => "TOTAL"
  | .none => "NONE"

/-- The choice as its label. -/
def codec : Codec ReturnCapacity := .labels label [.indexes, .total, .none]

end ReturnCapacity

/-- Whether the sizes of item collections are reported. -/
inductive ReturnMetrics where
  | size
  | none
deriving DecidableEq, Repr

namespace ReturnMetrics

instance : Inhabited ReturnMetrics := ⟨.none⟩

/-- The label of a choice. -/
def label : ReturnMetrics → String
  | .size => "SIZE"
  | .none => "NONE"

/-- The choice as its label. -/
def codec : Codec ReturnMetrics := .labels label [.size, .none]

end ReturnMetrics

/-! ## What a read returns -/

/-- Which attributes a query or scan returns. -/
inductive Select where
  | allAttributes
  | allProjectedAttributes
  | specificAttributes
  | count
deriving DecidableEq, Repr

namespace Select

instance : Inhabited Select := ⟨.allAttributes⟩

/-- The label of a choice. -/
def label : Select → String
  | .allAttributes => "ALL_ATTRIBUTES"
  | .allProjectedAttributes => "ALL_PROJECTED_ATTRIBUTES"
  | .specificAttributes => "SPECIFIC_ATTRIBUTES"
  | .count => "COUNT"

/-- The choice as its label. -/
def codec : Codec Select :=
  .labels label [.allAttributes, .allProjectedAttributes, .specificAttributes, .count]

end Select

end ItemStore
