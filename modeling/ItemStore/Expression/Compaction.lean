import ItemStore.Expression.Basic
import ItemStore.Expression.Token

/-!
# Compaction

The texts of one request share their placeholders.  Compaction makes the bindings of a request
canonical in two steps.  `merge` lets the first placeholder of every name and of every value stand
for all placeholders that are bound to the same; `renumber` then numbers the placeholders that are
left in the order in which they first occur.  Bindings that no text uses are dropped, and a
placeholder that is not bound stays as it is.
-/

namespace ItemStore

/-! ## What a placeholder stands for -/

/-- What a placeholder stands for. -/
inductive Binding where
  | name (text : String)
  | value (v : AttributeValue)

/-- Whether two placeholders stand for the same. -/
def Binding.same : Binding → Binding → Bool
  | .name a, .name b => a == b
  | .value a, .value b => a == b
  | _, _ => false

/-- What a placeholder stands for; names come before values. -/
def Bindings.find? (b : Bindings) (token : String) : Option Binding :=
  match b.names.get? token with
  | some text => some (.name text)
  | none => (b.values.get? token).map .value

namespace Compaction

/-- The placeholders of texts, in order. -/
def tokensOfAll (texts : List String) : List String := texts.flatMap tokensOf

/-- Rename by a table; what is not in the table keeps its name. -/
def renameBy (table : List (String × String)) (token : String) : String :=
  (table.lookup token).getD token

/-! ## Merging -/

/-- The bound placeholders of texts, in order, each once, with what they stand for. -/
def occurrences (texts : List String) (b : Bindings) : List (String × Binding) :=
  (tokensOfAll texts).eraseDups.filterMap fun t => (b.find? t).map fun x => (t, x)

/-- The first of some placeholders that stands for the same as a given one. -/
def leader (occurring : List (String × Binding)) (token : String) (x : Binding) : String :=
  ((occurring.find? fun u => u.2.same x).map (·.1)).getD token

/-- Every bound placeholder with the first one that stands for the same. -/
def leaders (texts : List String) (b : Bindings) : List (String × String) :=
  let occurring := occurrences texts b
  occurring.map fun u => (u.1, leader occurring u.1 u.2)

/-- Let the first placeholder of every name and value stand for all of them. -/
def merge (texts : List String) (b : Bindings) : List String × Bindings :=
  let table := leaders texts b
  (texts.map (renameTokens (renameBy table)),
    { names := b.names.filter fun t _ => table.lookup t == some t
      values := b.values.filter fun t _ => table.lookup t == some t })

/-! ## Numbering -/

/-- The placeholder of the `i`-th name. -/
def numberedName (i : Nat) : String := "#n" ++ toString i

/-- The placeholder of the `i`-th value. -/
def numberedValue (i : Nat) : String := ":v" ++ toString i

/-- Every bound placeholder with its number, in the order of the first occurrences. -/
def numbering (texts : List String) (b : Bindings) : List (String × String) :=
  let occurring := (tokensOfAll texts).eraseDups
  let names := occurring.filter b.names.contains
  let values := occurring.filter fun t => !b.names.contains t && b.values.contains t
  names.zipIdx.map (fun e => (e.1, numberedName e.2)) ++
    values.zipIdx.map (fun e => (e.1, numberedValue e.2))

/-- The entries that a table renames, under their new names. -/
def renameKeys {α : Type} (table : List (String × String)) (c : Keyed α) : Keyed α :=
  .ofList (c.entries.filterMap fun e => (table.lookup e.1).map fun t => (t, e.2))

/-- Number the placeholders. -/
def renumber (texts : List String) (b : Bindings) : List String × Bindings :=
  let table := numbering texts b
  (texts.map (renameTokens (renameBy table)),
    { names := renameKeys table b.names, values := renameKeys table b.values })

/-! ## Both -/

/-- Make the bindings of texts canonical. -/
def compact (texts : List String) (b : Bindings) : List String × Bindings :=
  let (merged, b') := merge texts b
  renumber merged b'

end Compaction

/-- An expression with canonical bindings. -/
def Expression.compact (e : Expression) : Expression :=
  let (texts, bindings) := Compaction.compact [e.text] e.bindings
  { text := texts.headD "", bindings }

end ItemStore
