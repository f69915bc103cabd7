import ItemStore.Error
import ItemStore.Expression.Scribe
import ItemStore.Path.Parser

/-!
# Conditions

A condition is a tree of tests on attributes.  One type serves for key conditions, filters and
write conditions.  Its paths are texts at first (`Condition String`); `check` reads them and refuses
trees that make no sense, and what passes (`Condition Path`) can always be written.
-/

namespace ItemStore

/-! ## The tree -/

/-- How two values are compared. -/
inductive Comparison where
  | eq
  | ne
  | lt
  | le
  | gt
  | ge
deriving DecidableEq, Repr

/-- The sign of a comparison. -/
def Comparison.sign : Comparison → String
  | .eq => "="
  | .ne => "<>"
  | .lt => "<"
  | .le => "<="
  | .gt => ">"
  | .ge => ">="

/-- What a test looks at. -/
inductive Subject (P : Type) where
  /-- The value at a path. -/
  | path (p : P)
  /-- The size of the value at a path. -/
  | size (p : P)
deriving DecidableEq, Repr

/-- A condition on an item, with paths of type `P`. -/
inductive Condition (P : Type) where
  /-- All of some conditions hold. -/
  | all (children : List (Condition P))
  /-- One of some conditions holds. -/
  | any (children : List (Condition P))
  /-- A condition does not hold. -/
  | not (child : Condition P)
  /-- A comparison with a value. -/
  | compare (subject : Subject P) (op : Comparison) (value : AttributeValue)
  /-- A value within two bounds, which are within themselves. -/
  | between (subject : Subject P) (low high : AttributeValue)
  /-- One of some values. -/
  | oneOf (subject : Subject P) (values : List AttributeValue)
  /-- A text or bytes that begin with a value. -/
  | beginsWith (path : P) (value : AttributeValue)
  /-- A text or a container that has a value in it. -/
  | contains (path : P) (value : AttributeValue)
  /-- There is an attribute. -/
  | present (path : P)
  /-- There is no attribute. -/
  | absent (path : P)
  /-- An attribute of a kind. -/
  | hasKind (path : P) (kind : AttributeKind)

namespace Condition

/-- Both conditions hold; a conjunction in front takes the other one in. -/
def and {P : Type} (first second : Condition P) : Condition P :=
  match first with
  | .all children => .all (children ++ [second])
  | first => .all [first, second]

/-- The conjunction of conditions that are added one after another, if there are any. -/
def chain {P : Type} : List (Condition P) → Option (Condition P)
  | [] => none
  | c :: rest => some (rest.foldl Condition.and c)

/-! ## Checking -/

/-- Read the path of a subject. -/
def checkSubject : Subject String → Except StoreError (Subject Path)
  | .path p => do return .path (← Path.parse p)
  | .size p => do return .size (← Path.parse p)

mutual

/-- Read the paths of a condition, from left to right.  A conjunction or disjunction of nothing is
refused before anything in it is looked at, a choice among no values before its path is. -/
def check : Condition String → Except StoreError (Condition Path)
  | .all [] => .error (.invalid .emptyAll)
  | .any [] => .error (.invalid .emptyAny)
  | .all children => do return .all (← checkAll children)
  | .any children => do return .any (← checkAll children)
  | .not child => do return .not (← check child)
  | .compare subject op value => do return .compare (← checkSubject subject) op value
  | .between subject low high => do return .between (← checkSubject subject) low high
  | .oneOf _ [] => .error (.invalid .emptyOneOf)
  | .oneOf subject values => do return .oneOf (← checkSubject subject) values
  | .beginsWith path value => do return .beginsWith (← Path.parse path) value
  | .contains path value => do return .contains (← Path.parse path) value
  | .present path => do return .present (← Path.parse path)
  | .absent path => do return .absent (← Path.parse path)
  | .hasKind path kind => do return .hasKind (← Path.parse path) kind

/-- Read the paths of conditions, from left to right. -/
def checkAll : List (Condition String) → Except StoreError (List (Condition Path))
  | [] => return []
  | c :: rest => do
    let first ← check c
    return first :: (← checkAll rest)

end

/-! ## Writing -/

/-- A function applied to arguments, as it is written. -/
def callText (function : String) (arguments : List String) : String :=
  function ++ "(" ++ ", ".intercalate arguments ++ ")"

/-- Write a subject. -/
def writeSubject : Subject Path → Writing String
  | .path p => Scribe.path p
  | .size p => do return callText "size" [← Scribe.path p]

/-- Join the parts of a conjunction or disjunction.  Inside another condition they stand in
parentheses, unless there is only one. -/
def join (nested : Bool) (word : String) (parts : List String) : String :=
  let joined := (" " ++ word ++ " ").intercalate parts
  if nested && parts.length > 1 then "(" ++ joined ++ ")" else joined

mutual

/-- Write a condition, which stands inside another one or on its own. -/
def write (nested : Bool) : Condition Path → Writing String
  | .all children => do return join nested "AND" (← writeAll children)
  | .any children => do return join nested "OR" (← writeAll children)
  | .not child => do return "NOT " ++ (← write true child)
  | .compare subject op value => do
    let left ← writeSubject subject
    return left ++ op.sign ++ (← Scribe.value value)
  | .between subject low high => do
    let left ← writeSubject subject
    let low ← Scribe.value low
    let high ← Scribe.value high
    return left ++ " BETWEEN " ++ low ++ " AND " ++ high
  | .oneOf subject values => do
    let left ← writeSubject subject
    return left ++ " " ++ callText "IN " (← Scribe.valueAll values)
  | .beginsWith path value => do
    let left ← Scribe.path path
    return callText "begins_with" [left, ← Scribe.value value]
  | .contains path value => do
    let left ← Scribe.path path
    return callText "contains" [left, ← Scribe.value value]
  | .present path => do return callText "attribute_exists" [← Scribe.path path]
  | .absent path => do return callText "attribute_not_exists" [← Scribe.path path]
  | .hasKind path kind => do
    let left ← Scribe.path path
    return callText "attribute_type" [left, ← Scribe.value (.string kind.descriptor)]

/-- Write the parts of a conjunction or disjunction. -/
def writeAll : List (Condition Path) → Writing (List String)
  | [] => return []
  | c :: rest => do
    let first ← write true c
    return first :: (← writeAll rest)

end

/-- The expression of a condition, with words that begin with a stem. -/
def compile (c : Condition String) (stem : String) : Except StoreError Expression := do
  return Scribe.compile stem (write false (← c.check))

end Condition

end ItemStore
