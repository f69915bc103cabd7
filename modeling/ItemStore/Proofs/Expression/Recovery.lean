import ItemStore.Proofs.Attribute.Canonical
import ItemStore.Proofs.Expression.Clauses
import ItemStore.Proofs.Expression.Meaning

/-!
# Actions recovered from what is read

What is read of an update is turned back into actions, once the placeholders are replaced by what
they stand for.

* `Edit.action?` recovers an action from what is read of it: its kind from the shape, its path,
  which has to be the same in every place where it stands, and its value from the bindings.
* `UpdateAction.edit` is what is to be read of an action, and `UpdateAction.action?_edit` says that
  the action is recovered from it.
* `Edit.action?_mapValue`: values play no part in it, so a text that says something up to a change
  of values gives it back up to that change (`Expression.readsBack_of_map_eq`).
-/

namespace ItemStore

/-! ## Recovering actions -/

namespace Binding

/-- The name that is bound. -/
def name? : Binding → Option String
  | .name text => some text
  | .value _ => none

/-- The value that is bound. -/
def value? : Binding → Option AttributeValue
  | .name _ => none
  | .value v => some v

/-- The same binding with a changed value. -/
def mapValue (f : AttributeValue → AttributeValue) : Binding → Binding
  | .name text => .name text
  | .value v => .value (f v)

end Binding

/-- The step of a path, if a name or an index stands for it. -/
def Step.element? : Step (Option Binding) → Option PathElement
  | .name x => (x.bind Binding.name?).map .name
  | .index n => some (.index n)

/-- The path that steps lead along. -/
def Path.ofSteps? (steps : List (Step (Option Binding))) : Option Path :=
  (steps.mapM Step.element?).map Path.mk

namespace Term

/-- The path that a term is. -/
def path? : Term (Option Binding) → Option Path
  | .path steps => Path.ofSteps? steps
  | _ => none

/-- The value that a term is. -/
def value? : Term (Option Binding) → Option AttributeValue
  | .path [.name x] => x.bind Binding.value?
  | _ => none

end Term

/-- The action that assigns an amount at a path. -/
def Amount.action? (p : Path) : Amount (Option Binding) → Option (UpdateAction Path)
  | .term (.path steps) => (Term.path steps).value?.map (.set p · false)
  | .term (.ifAbsent steps other) =>
    if Path.ofSteps? steps = some p then other.value?.map (.set p · true) else none
  | .term (.concat first second) =>
    if first.path? = some p then second.value?.map (.append p)
    else if second.path? = some p then first.value?.map (.prepend p)
    else none
  | .sum t u => if t.path? = some p then u.value?.map (.increment p) else none
  | .difference t u => if t.path? = some p then u.value?.map (.decrement p) else none

/-- The action that an edit stands for. -/
def Edit.action? : Edit (Option Binding) → Option (UpdateAction Path)
  | .assign steps amount => do amount.action? (← Path.ofSteps? steps)
  | .add steps value => do return .add (← Path.ofSteps? steps) (← value.bind Binding.value?)
  | .remove steps => do return .remove (← Path.ofSteps? steps)
  | .delete steps value => do
    return .delete (← Path.ofSteps? steps) (← value.bind Binding.value?)

/-- The actions that clauses stand for under bindings. -/
def Bindings.recover? (b : Bindings) (clauses : List (UpdateClause × List (Edit String))) :
    Option (List (UpdateClause × List (UpdateAction Path))) :=
  clauses.mapM fun clause =>
    (clause.2.mapM fun edit => Edit.action? (edit.map b.find?)).map (clause.1, ·)

/-- Whether a text is read as an update in one way, and clauses are recovered from it. -/
def Expression.ReadsBack (e : Expression)
    (clauses : List (UpdateClause × List (UpdateAction Path))) : Prop :=
  ∃ read, ReadsClauses (Lexeme.ofSigns (signs e.text)) read ∧
    (∀ read', ReadsClauses (Lexeme.ofSigns (signs e.text)) read' → read' = read) ∧
    e.bindings.recover? read = some clauses

/-! ## Actions of the same kind -/

namespace UpdateAction

variable {P : Type}

/-- The same action with a changed value. -/
def mapValue (f : AttributeValue → AttributeValue) : UpdateAction P → UpdateAction P
  | .set p v onlyIfAbsent => .set p (f v) onlyIfAbsent
  | .remove p => .remove p
  | .add p v => .add p (f v)
  | .delete p v => .delete p (f v)
  | .append p v => .append p (f v)
  | .prepend p v => .prepend p (f v)
  | .increment p v => .increment p (f v)
  | .decrement p v => .decrement p (f v)

theorem mapValue_id : mapValue (P := P) id = id := by
  funext a
  cases a <;> rfl

/-- Actions of one kind at one path, with values that hold the same. -/
inductive Same : UpdateAction P → UpdateAction P → Prop
  | set (p : P) {v w : AttributeValue} (h : v.same w = true) (onlyIfAbsent : Bool) :
      Same (.set p v onlyIfAbsent) (.set p w onlyIfAbsent)
  | remove (p : P) : Same (.remove p) (.remove p)
  | add (p : P) {v w : AttributeValue} (h : v.same w = true) : Same (.add p v) (.add p w)
  | delete (p : P) {v w : AttributeValue} (h : v.same w = true) : Same (.delete p v) (.delete p w)
  | append (p : P) {v w : AttributeValue} (h : v.same w = true) : Same (.append p v) (.append p w)
  | prepend (p : P) {v w : AttributeValue} (h : v.same w = true) :
      Same (.prepend p v) (.prepend p w)
  | increment (p : P) {v w : AttributeValue} (h : v.same w = true) :
      Same (.increment p v) (.increment p w)
  | decrement (p : P) {v w : AttributeValue} (h : v.same w = true) :
      Same (.decrement p v) (.decrement p w)

/-- Actions whose values have one canonical form hold the same. -/
theorem same_of_canonical {a b : UpdateAction P}
    (h : a.mapValue AttributeValue.canonical = b.mapValue AttributeValue.canonical) :
    a.Same b := by
  have hsame {v w : AttributeValue} : v.canonical = w.canonical → v.same w = true :=
    AttributeValue.same_iff_canonical.2
  cases a <;> cases b <;> simp only [mapValue, reduceCtorEq, set.injEq, remove.injEq, add.injEq,
    delete.injEq, append.injEq, prepend.injEq, increment.injEq, decrement.injEq] at h
  case set.set => obtain ⟨rfl, hv, rfl⟩ := h; exact .set _ (hsame hv) _
  case remove.remove => obtain rfl := h; exact .remove _
  case add.add => obtain ⟨rfl, hv⟩ := h; exact .add _ (hsame hv)
  case delete.delete => obtain ⟨rfl, hv⟩ := h; exact .delete _ (hsame hv)
  case append.append => obtain ⟨rfl, hv⟩ := h; exact .append _ (hsame hv)
  case prepend.prepend => obtain ⟨rfl, hv⟩ := h; exact .prepend _ (hsame hv)
  case increment.increment => obtain ⟨rfl, hv⟩ := h; exact .increment _ (hsame hv)
  case decrement.decrement => obtain ⟨rfl, hv⟩ := h; exact .decrement _ (hsame hv)

end UpdateAction

/-- Clauses of the same kinds with the same actions, up to equality of values. -/
def SameClauses {P : Type} (clauses clauses' : List (UpdateClause × List (UpdateAction P))) :
    Prop :=
  List.Forall₂ (fun c c' => c.1 = c'.1 ∧ List.Forall₂ UpdateAction.Same c.2 c'.2) clauses clauses'

/-- Clauses whose values have the same canonical forms are the same. -/
theorem sameClauses_of_canonical {P : Type}
    {clauses clauses' : List (UpdateClause × List (UpdateAction P))}
    (h : mapClauses (UpdateAction.mapValue AttributeValue.canonical) clauses =
      mapClauses (UpdateAction.mapValue AttributeValue.canonical) clauses') :
    SameClauses clauses clauses' := by
  refine (forall₂_of_map_eq h).imp fun c c' hc => ?_
  obtain ⟨hk, has⟩ := Prod.mk.inj hc
  exact ⟨hk, (forall₂_of_map_eq has).imp fun _ _ => UpdateAction.same_of_canonical⟩

/-! ## Recovering up to a change of values -/

section MapValue

variable {α β γ : Type}

theorem Step.map_map (g : β → γ) (f : α → β) (s : Step α) :
    (s.map f).map g = s.map (g ∘ f) := by
  cases s <;> rfl

theorem Step.map_map_all (g : β → γ) (f : α → β) (steps : List (Step α)) :
    (steps.map (Step.map f)).map (Step.map g) = steps.map (Step.map (g ∘ f)) := by
  rw [List.map_map]
  exact List.map_congr_left fun s _ => Step.map_map g f s

theorem Term.map_map (g : β → γ) (f : α → β) (t : Term α) :
    (t.map f).map g = t.map (g ∘ f) := by
  induction t with
  | path steps => rw [map, map, map, Step.map_map_all]
  | ifAbsent steps other ih => rw [map, map, map, Step.map_map_all, ih]
  | concat first second ihf ihs => rw [map, map, map, ihf, ihs]

theorem Amount.map_map (g : β → γ) (f : α → β) (a : Amount α) :
    (a.map f).map g = a.map (g ∘ f) := by
  cases a <;> simp only [map, Term.map_map]

theorem Edit.map_map (g : β → γ) (f : α → β) (e : Edit α) :
    (e.map f).map g = e.map (g ∘ f) := by
  cases e <;> simp only [map, Step.map_map_all, Amount.map_map, Function.comp_apply]

variable (f : AttributeValue → AttributeValue)

theorem Binding.bind_name?_mapValue (x : Option Binding) :
    (x.map (mapValue f)).bind name? = x.bind name? := by
  rcases x with _ | _ | _ <;> rfl

theorem Binding.bind_value?_mapValue (x : Option Binding) :
    (x.map (mapValue f)).bind value? = (x.bind value?).map f := by
  rcases x with _ | _ | _ <;> rfl

/-- No value stands in a path, so changing values leaves it as it is. -/
theorem Path.ofSteps?_mapValue (steps : List (Step (Option Binding))) :
    ofSteps? (steps.map (Step.map (Option.map (Binding.mapValue f)))) = ofSteps? steps := by
  have hstep : Step.element? ∘ Step.map (Option.map (Binding.mapValue f)) = Step.element? := by
    funext s
    cases s with
    | name x => exact congrArg (Option.map PathElement.name) (Binding.bind_name?_mapValue f x)
    | index n => rfl
  rw [ofSteps?, ofSteps?, List.mapM_map, hstep]

theorem Term.path?_mapValue (t : Term (Option Binding)) :
    (t.map (Option.map (Binding.mapValue f))).path? = t.path? := by
  cases t with
  | path steps => exact Path.ofSteps?_mapValue f steps
  | ifAbsent _ _ => rfl
  | concat _ _ => rfl

/-- A changed value is recovered as the changed value. -/
theorem Term.value?_mapValue (t : Term (Option Binding)) :
    (t.map (Option.map (Binding.mapValue f))).value? = t.value?.map f := by
  match t with
  | .path [.name x] => exact Binding.bind_value?_mapValue f x
  | .path [] | .path (.index _ :: _) | .path (.name _ :: _ :: _) => rfl
  | .ifAbsent _ _ | .concat _ _ => rfl

/-- Changing values and recovering an action may be done in either order. -/
theorem Amount.action?_mapValue (p : Path) (a : Amount (Option Binding)) :
    (a.map (Option.map (Binding.mapValue f))).action? p =
      (a.action? p).map (UpdateAction.mapValue f) := by
  have hif {c : Prop} [Decidable c] {x y : Option (UpdateAction Path)} :
      (if c then x else y).map (UpdateAction.mapValue f) =
        if c then x.map (UpdateAction.mapValue f) else y.map (UpdateAction.mapValue f) :=
    apply_ite _ _ _ _
  match a with
  | .term (.path steps) =>
    rw [map, Term.map, action?, ← Term.map, Term.value?_mapValue, action?, Option.map_map,
      Option.map_map]
    rfl
  | .term (.ifAbsent steps other) =>
    simp only [map, Term.map, action?, Path.ofSteps?_mapValue, Term.value?_mapValue, hif,
      Option.map_map, Option.map_none]
    rfl
  | .term (.concat first second) =>
    simp only [map, Term.map, action?, Term.path?_mapValue, Term.value?_mapValue, hif,
      Option.map_map, Option.map_none]
    rfl
  | .sum t u =>
    simp only [map, action?, Term.path?_mapValue, Term.value?_mapValue, hif, Option.map_map,
      Option.map_none]
    rfl
  | .difference t u =>
    simp only [map, action?, Term.path?_mapValue, Term.value?_mapValue, hif, Option.map_map,
      Option.map_none]
    rfl

/-- Recovering an action and changing values may be done in either order. -/
theorem Edit.action?_mapValue (e : Edit (Option Binding)) :
    (e.map (Option.map (Binding.mapValue f))).action? =
      e.action?.map (UpdateAction.mapValue f) := by
  cases e with
  | assign steps amount =>
    rw [map, action?, action?, Path.ofSteps?_mapValue]
    cases Path.ofSteps? steps with
    | none => rfl
    | some p => exact amount.action?_mapValue f p
  | add steps value =>
    rw [map, action?, action?, Path.ofSteps?_mapValue, Binding.bind_value?_mapValue]
    cases Path.ofSteps? steps <;> cases value.bind Binding.value? <;> rfl
  | remove steps =>
    rw [map, action?, action?, Path.ofSteps?_mapValue]
    cases Path.ofSteps? steps <;> rfl
  | delete steps value =>
    rw [map, action?, action?, Path.ofSteps?_mapValue, Binding.bind_value?_mapValue]
    cases Path.ofSteps? steps <;> cases value.bind Binding.value? <;> rfl

end MapValue

/-! ## Actions as edits -/

/-- A path as a term. -/
def Path.term (p : Path) : Term Binding := .path p.steps

/-- A value as a term. -/
def AttributeValue.term (v : AttributeValue) : Term Binding := .path [.name (.value v)]

/-- An action, as it is read. -/
def UpdateAction.edit : UpdateAction Path → Edit Binding
  | .set p v false => .assign p.steps (.term v.term)
  | .set p v true => .assign p.steps (.term (.ifAbsent p.steps v.term))
  | .remove p => .remove p.steps
  | .add p v => .add p.steps (.value v)
  | .delete p v => .delete p.steps (.value v)
  | .append p v => .assign p.steps (.term (.concat p.term v.term))
  | .prepend p v => .assign p.steps (.term (.concat v.term p.term))
  | .increment p v => .assign p.steps (.sum p.term v.term)
  | .decrement p v => .assign p.steps (.difference p.term v.term)

/-- A path is recovered from its steps. -/
theorem Path.ofSteps?_steps (p : Path) : ofSteps? (p.steps.map (Step.map some)) = some p := by
  have hsteps : ∀ es : List PathElement,
      ((es.map PathElement.step).map (Step.map some)).mapM Step.element? = some es := by
    intro es
    refine mapM_eq_some.2 (List.forall₂_map_left_iff.2 (List.forall₂_map_left_iff.2 ?_))
    exact List.forall₂_same.2 fun e _ => by cases e <;> rfl
  rw [ofSteps?, steps, hsteps, Option.map_some]

theorem Term.path?_path (p : Path) : (p.term.map some).path? = some p := p.ofSteps?_steps

theorem Term.path?_value (v : AttributeValue) : (v.term.map some).path? = none := rfl

theorem Term.value?_value (v : AttributeValue) : (v.term.map some).value? = some v := rfl

/-- An action is recovered from what is read of it. -/
theorem UpdateAction.action?_edit (a : UpdateAction Path) : (a.edit.map some).action? = some a := by
  have hassign (p : Path) (amount : Amount Binding) :
      ((Edit.assign p.steps amount).map some).action? = (amount.map some).action? p := by
    rw [Edit.map, Edit.action?, p.ofSteps?_steps]
    rfl
  cases a with
  | set p v onlyIfAbsent =>
    cases onlyIfAbsent with
    | false => exact hassign p _
    | true =>
      rw [edit, hassign, Amount.map, Term.map, Amount.action?, p.ofSteps?_steps, if_pos rfl,
        Term.value?_value, Option.map_some]
  | remove p => rw [edit, Edit.map, Edit.action?, p.ofSteps?_steps]; rfl
  | add p v => rw [edit, Edit.map, Edit.action?, p.ofSteps?_steps]; rfl
  | delete p v => rw [edit, Edit.map, Edit.action?, p.ofSteps?_steps]; rfl
  | append p v =>
    rw [edit, hassign, Amount.map, Term.map, Amount.action?, Term.path?_path, if_pos rfl,
      Term.value?_value, Option.map_some]
  | prepend p v =>
    -- a value is not a path, so the path is the second list
    have hvalue : ¬ (none : Option Path) = some p := by simp
    rw [edit, hassign, Amount.map, Term.map, Amount.action?, Term.path?_value, if_neg hvalue,
      Term.path?_path, if_pos rfl, Term.value?_value, Option.map_some]
  | increment p v =>
    rw [edit, hassign, Amount.map, Amount.action?, Term.path?_path, if_pos rfl,
      Term.value?_value, Option.map_some]
  | decrement p v =>
    rw [edit, hassign, Amount.map, Amount.action?, Term.path?_path, if_pos rfl,
      Term.value?_value, Option.map_some]

/-! ## Texts that say clauses -/

/-- Edits that say the same as actions, up to a change of values, are turned back into these
actions, up to that change. -/
theorem exists_action?_of_map_eq {b : Bindings} {f : AttributeValue → AttributeValue}
    {e : Edit String} {a : UpdateAction Path}
    (h : e.map (fun t => (b.find? t).map (Binding.mapValue f)) =
      a.edit.map fun x => some (x.mapValue f)) :
    ∃ a', (e.map b.find?).action? = some a' ∧ a'.mapValue f = a.mapValue f := by
  have hleft : (e.map b.find?).map (Option.map (Binding.mapValue f)) =
      e.map fun t => (b.find? t).map (Binding.mapValue f) := Edit.map_map _ _ _
  have hright : (a.edit.map some).map (Option.map (Binding.mapValue f)) =
      a.edit.map fun x => some (x.mapValue f) := Edit.map_map _ _ _
  have haction := congrArg Edit.action? (hleft.trans (h.trans hright.symm))
  rw [Edit.action?_mapValue, Edit.action?_mapValue, a.action?_edit, Option.map_some] at haction
  exact Option.map_eq_some_iff.1 haction

/-- Clauses are recovered from what is read, up to the change of values that the reading shows. -/
theorem exists_recover?_of_map_eq {b : Bindings} {f : AttributeValue → AttributeValue}
    {read : List (UpdateClause × List (Edit String))}
    {clauses : List (UpdateClause × List (UpdateAction Path))}
    (h : mapClauses (Edit.map fun t => (b.find? t).map (Binding.mapValue f)) read =
      mapClauses (Edit.map fun x => some (x.mapValue f)) (mapClauses UpdateAction.edit clauses)) :
    ∃ clauses', b.recover? read = some clauses' ∧
      mapClauses (UpdateAction.mapValue f) clauses' =
        mapClauses (UpdateAction.mapValue f) clauses := by
  have hedits : (mapClauses (Edit.map fun x => some (x.mapValue f))
      (mapClauses UpdateAction.edit clauses)) =
        mapClauses (fun a : UpdateAction Path => a.edit.map fun x => some (x.mapValue f))
          clauses := by
    simp [mapClauses, Function.comp_def]
  rw [hedits] at h
  refine exists_mapM_of_map_eq (fun clause clause' hclause => ?_) h
  obtain ⟨hk, hall⟩ := Prod.mk.inj hclause
  obtain ⟨as, has, hsame⟩ := exists_mapM_of_map_eq (fun _ _ => exists_action?_of_map_eq) hall
  exact ⟨(clause.1, as), by rw [has]; rfl, by rw [hk, hsame]⟩

open Lexeme

/-- A text that says a phrase up to a change of values has its lexemes up to that change. -/
theorem Expression.alike_of_map_eq {e : Expression} {p : Phrase}
    {f : AttributeValue → AttributeValue}
    (hsaid : (e.bindings.resolve e.text).map (Sign.map (Option.map (Binding.mapValue f))) =
      (p.map (Sign.map some)).map (Sign.map (Option.map (Binding.mapValue f)))) :
    Alike (fun t => (e.bindings.find? t).map (Binding.mapValue f))
      (fun x => some (x.mapValue f)) (ofSigns (signs e.text)) (ofSigns p) := by
  rw [Alike, ← ofSigns_map, ← ofSigns_map]
  rw [Bindings.resolve, List.map_map, List.map_map] at hsaid
  refine congrArg ofSigns ((List.map_congr_left fun s _ => ?_).trans (hsaid.trans
    (List.map_congr_left fun s _ => ?_)))
  · cases s <;> rfl
  · cases s <;> rfl

/-- From a text that says a phrase up to a change of values, the clauses that the phrase is read as
are recovered up to that change. -/
theorem Expression.readsBack_of_map_eq {e : Expression} {p : Phrase}
    {f : AttributeValue → AttributeValue}
    {clauses : List (UpdateClause × List (UpdateAction Path))}
    (hsaid : (e.bindings.resolve e.text).map (Sign.map (Option.map (Binding.mapValue f))) =
      (p.map (Sign.map some)).map (Sign.map (Option.map (Binding.mapValue f))))
    (hreads : ReadsClauses (ofSigns p) (mapClauses UpdateAction.edit clauses)) :
    ∃ clauses', e.ReadsBack clauses' ∧
      mapClauses (UpdateAction.mapValue f) clauses' =
        mapClauses (UpdateAction.mapValue f) clauses := by
  obtain ⟨read, hread, hmap⟩ := hreads.transfer (alike_of_map_eq hsaid)
  obtain ⟨clauses', hrecover, hsame⟩ := exists_recover?_of_map_eq hmap
  exact ⟨clauses', ⟨read, hread, fun _ hread' => hread'.unique hread, hrecover⟩, hsame⟩

end ItemStore
