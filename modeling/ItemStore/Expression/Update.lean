import ItemStore.Error
import ItemStore.Expression.Scribe
import ItemStore.Path.Parser

/-!
# Updates

An update is a list of actions on attributes.  Their text is grouped by the keyword of the action;
within a group the actions keep their order.
-/

namespace ItemStore

/-! ## Actions -/

/-- A change to an item, at a path of type `P`. -/
inductive UpdateAction (P : Type) where
  /-- Set a value, or only where there is none yet. -/
  | set (path : P) (value : AttributeValue) (onlyIfAbsent : Bool)
  /-- Remove what is there. -/
  | remove (path : P)
  /-- Add to a number, or elements to a set. -/
  | add (path : P) (value : AttributeValue)
  /-- Take elements out of a set. -/
  | delete (path : P) (value : AttributeValue)
  /-- Put elements behind a list. -/
  | append (path : P) (value : AttributeValue)
  /-- Put elements before a list. -/
  | prepend (path : P) (value : AttributeValue)
  /-- Add a number. -/
  | increment (path : P) (value : AttributeValue)
  /-- Take a number away. -/
  | decrement (path : P) (value : AttributeValue)

/-- The keyword under which an action is written. -/
inductive UpdateClause where
  | set
  | add
  | remove
  | delete
deriving DecidableEq, Repr

namespace UpdateClause

/-- The clauses in the order in which they are written. -/
def all : List UpdateClause := [.set, .add, .remove, .delete]

/-- The keyword of a clause. -/
def keyword : UpdateClause → String
  | .set => "SET"
  | .add => "ADD"
  | .remove => "REMOVE"
  | .delete => "DELETE"

end UpdateClause

namespace UpdateAction

variable {P : Type}

/-- Where an action takes place. -/
def path : UpdateAction P → P
  | .set p _ _ => p
  | .remove p => p
  | .add p _ => p
  | .delete p _ => p
  | .append p _ => p
  | .prepend p _ => p
  | .increment p _ => p
  | .decrement p _ => p

/-- The same action in another place. -/
def withPath {Q : Type} (q : Q) : UpdateAction P → UpdateAction Q
  | .set _ v c => .set q v c
  | .remove _ => .remove q
  | .add _ v => .add q v
  | .delete _ v => .delete q v
  | .append _ v => .append q v
  | .prepend _ v => .prepend q v
  | .increment _ v => .increment q v
  | .decrement _ v => .decrement q v

/-- The clause that an action is written in. -/
def clause : UpdateAction P → UpdateClause
  | .set _ _ _ => .set
  | .remove _ => .remove
  | .add _ _ => .add
  | .delete _ _ => .delete
  | .append _ _ => .set
  | .prepend _ _ => .set
  | .increment _ _ => .set
  | .decrement _ _ => .set

/-- Whether an action only works on a whole attribute: list ends, and sets. -/
def needsTopLevel : UpdateAction P → Bool
  | .add _ v => v.isSet
  | .delete _ v => v.isSet
  | .append _ _ => true
  | .prepend _ _ => true
  | _ => false

/-! ## Checking -/

/-- Read the path of an action. -/
def locate (a : UpdateAction String) : Except StoreError (UpdateAction Path) := do
  return a.withPath (← Path.parse a.path)

/-- Accept an action whose path can be read and leads where the action works. -/
def validate (a : UpdateAction String) : Except StoreError Unit := do
  let p ← Path.parse a.path
  if a.needsTopLevel && !p.isTopLevel then
    .error (.invalid (.nestedTarget a.clause.keyword a.path))
  else .ok ()

/-! ## Writing -/

/-- Write an action. -/
def write (a : UpdateAction Path) : Writing String := do
  let p ← Scribe.path a.path
  match a with
  | .set _ v false => return p ++ "=" ++ (← Scribe.value v)
  | .set _ v true => return p ++ "=if_not_exists(" ++ p ++ "," ++ (← Scribe.value v) ++ ")"
  | .remove _ => return p
  | .add _ v => return p ++ " " ++ (← Scribe.value v)
  | .delete _ v => return p ++ " " ++ (← Scribe.value v)
  | .append _ v => return p ++ "=list_append(" ++ p ++ "," ++ (← Scribe.value v) ++ ")"
  | .prepend _ v => return p ++ "=list_append(" ++ (← Scribe.value v) ++ "," ++ p ++ ")"
  | .increment _ v => return p ++ "=" ++ p ++ "+" ++ (← Scribe.value v)
  | .decrement _ v => return p ++ "=" ++ p ++ "-" ++ (← Scribe.value v)

/-- Write actions, from left to right. -/
def writeAll : List (UpdateAction Path) → Writing (List String)
  | [] => return []
  | a :: rest => do
    let first ← a.write
    return first :: (← writeAll rest)

end UpdateAction

/-! ## Whole updates -/

namespace Update

/-- The actions of a clause, in their order. -/
def ofClause {P : Type} (k : UpdateClause) (actions : List (UpdateAction P)) :
    List (UpdateAction P) :=
  actions.filter fun a => a.clause = k

/-- Write the clauses that have actions. -/
def writeClauses (actions : List (UpdateAction Path)) : List UpdateClause → Writing (List String)
  | [] => return []
  | k :: rest => do
    let parts ← UpdateAction.writeAll (ofClause k actions)
    let more ← writeClauses actions rest
    if parts.isEmpty then return more
    else return (k.keyword ++ " " ++ ", ".intercalate parts) :: more

/-- Read the paths of actions in the order in which they are written. -/
def locate (actions : List (UpdateAction String)) : Except StoreError (List (UpdateAction Path)) :=
  (UpdateClause.all.flatMap fun k => ofClause k actions).mapM UpdateAction.locate

/-- The expression of an update, with words that begin with a stem. -/
def compile (actions : List (UpdateAction String)) (stem : String) :
    Except StoreError Expression := do
  let located ← locate actions
  return Scribe.compile stem (do return " ".intercalate (← writeClauses located UpdateClause.all))

end Update

/-! ## Growing updates -/

/-- Actions in the order in which they were added, each of them valid when it came. -/
structure Updates where
  /-- The actions. -/
  actions : List (UpdateAction String)
  /-- Every action is valid. -/
  valid : ∀ a ∈ actions, a.validate = .ok ()

namespace Updates

/-- No action yet. -/
def empty : Updates := ⟨[], by simp⟩

instance : Inhabited Updates := ⟨empty⟩

/-- Whether there is no action. -/
def isEmpty (u : Updates) : Bool := u.actions.isEmpty

/-- How many actions there are. -/
def size (u : Updates) : Nat := u.actions.length

/-- Add an action behind the others, if it is valid. -/
def push (u : Updates) (a : UpdateAction String) : Except StoreError Updates :=
  match h : a.validate with
  | .error e => .error e
  | .ok () => .ok
    { actions := u.actions ++ [a]
      valid := by
        intro b hb
        rcases List.mem_append.1 hb with hb | hb
        · exact u.valid b hb
        · rw [List.mem_singleton.1 hb]
          exact h }

/-- Offer an action: it is added, or it is refused and nothing changes. -/
def offer (u : Updates) (a : UpdateAction String) : Except StoreError Unit × Updates :=
  match u.push a with
  | .ok u' => (.ok (), u')
  | .error e => (.error e, u)

/-- Offer actions from the first to the last, whether the ones before were added or not. -/
def offerAll (u : Updates) : List (UpdateAction String) → List (Except StoreError Unit) × Updates
  | [] => ([], u)
  | a :: rest =>
    let (first, u) := u.offer a
    let (more, u) := u.offerAll rest
    (first :: more, u)

/-- Add actions one after another; the first one that is not valid is refused. -/
def pushAll (u : Updates) (actions : List (UpdateAction String)) : Except StoreError Updates :=
  actions.foldlM push u

end Updates

end ItemStore
