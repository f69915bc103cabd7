import ItemStore.Proofs.Json.Texts
import ItemStore.Service.Error

/-!
# Error bodies

What a body says is said here by its tree, without reading one field after another
(`ServiceError.Body.Says`): an object gives the error type and the message once or not at all,
whatever else it has, and an array gives the two in this order.  `Body.ofBytes?_eq_some_iff`: a body
is read exactly from the bytes of a tree that says it (`ErrorBody`).
-/

namespace ItemStore

namespace ServiceError

namespace Body

open Json (Draft StringUnit)

/-- Whether a field has one of some names. -/
def isNamed (names : List String) (field : List StringUnit × Draft) : Bool :=
  (StringUnit.text? field.1).any names.contains

/-- The values under some names. -/
def valuesOf (names : List String) (fields : List (List StringUnit × Draft)) : List Draft :=
  (fields.filter (isNamed names)).map (·.2)

/-- How a part of a body comes about from what it was and from the values that are found for it:
there is at most one value, and only where there was nothing. -/
inductive Fills : Option String → List Draft → Option String → Prop
  | keeps (part : Option String) : Fills part [] part
  | fills {units : List StringUnit} {text : String} : StringUnit.text? units = some text →
      Fills none [.string units] (some text)

/-- What the tree of an error body says. -/
inductive Says : Draft → Body → Prop
  | object {fields : List (List StringUnit × Draft)} {body : Body} :
      (∀ f ∈ fields, (StringUnit.text? f.1).isSome = true) →
      Fills none (valuesOf ["__type"] fields) body.errorType →
      Fills none (valuesOf ["message", "Message"] fields) body.message →
      Says (.object fields) body
  | empty : Says (.array []) ⟨none, none⟩
  | errorType {units : List StringUnit} {type : String} : StringUnit.text? units = some type →
      Says (.array [.string units]) ⟨some type, none⟩
  | both {units units' : List StringUnit} {type message : String} :
      StringUnit.text? units = some type → StringUnit.text? units' = some message →
      Says (.array [.string units, .string units']) ⟨some type, some message⟩

/-! ## Fields -/

section Fields

variable {part part' : Option String} {d : Draft} {ds : List Draft} {text : String}

theorem text?_eq_some_iff :
    text? d = some text ↔ ∃ units, d = .string units ∧ StringUnit.text? units = some text := by
  cases d with
  | string units => simp [text?]
  | _ => simp [text?]

theorem fills_nil : Fills part [] part' ↔ part = part' := by
  constructor
  · rintro ⟨⟩
    rfl
  · rintro rfl
    exact .keeps part

/-- A value fills a part that was empty, and no other value does after it. -/
theorem fills_cons : Fills part (d :: ds) part' ↔
    part = none ∧ ∃ text, text? d = some text ∧ Fills (some text) ds part' := by
  constructor
  · rintro (_ | htext)
    exact ⟨rfl, _, htext, .keeps _⟩
  · rintro ⟨rfl, text, htext, hfills⟩
    obtain ⟨units, rfl, htext⟩ := text?_eq_some_iff.1 htext
    cases hfills
    exact .fills htext

variable {names : List String} {units : List StringUnit} {name : String}
  {fields : List (List StringUnit × Draft)}

theorem valuesOf_cons_of_mem (h : StringUnit.text? units = some name) (hname : name ∈ names) :
    valuesOf names ((units, d) :: fields) = d :: valuesOf names fields := by
  have hnamed : isNamed names (units, d) = true := by
    unfold isNamed
    rw [h]
    simpa using hname
  unfold valuesOf
  rw [List.filter_cons_of_pos hnamed]
  rfl

theorem valuesOf_cons_of_not_mem (h : StringUnit.text? units = some name) (hname : name ∉ names) :
    valuesOf names ((units, d) :: fields) = valuesOf names fields := by
  have hnamed : ¬ isNamed names (units, d) = true := by
    unfold isNamed
    rw [h]
    simpa using hname
  unfold valuesOf
  rw [List.filter_cons_of_neg hnamed]

variable {body result : Body}

theorem ofFields?_errorType (h : StringUnit.text? units = some "__type") :
    ofFields? body ((units, d) :: fields) = some result ↔
      body.errorType = none ∧ ∃ text, text? d = some text ∧
        ofFields? { body with errorType := some text } fields = some result := by
  rw [ofFields?, h, Option.bind_eq_bind, Option.bind_some, if_pos rfl]
  cases body.errorType with
  | none => simp [Option.bind_eq_some_iff]
  | some type => simp

theorem ofFields?_message (h : StringUnit.text? units = some name)
    (hname : name ∈ ["message", "Message"]) :
    ofFields? body ((units, d) :: fields) = some result ↔
      body.message = none ∧ ∃ text, text? d = some text ∧
        ofFields? { body with message := some text } fields = some result := by
  have htype : name ≠ "__type" := by
    rintro rfl
    simp at hname
  have hmessage : (decide (name = "message") || decide (name = "Message")) = true := by
    simpa using hname
  rw [ofFields?, h, Option.bind_eq_bind, Option.bind_some, if_neg htype, if_pos hmessage]
  cases body.message with
  | none => simp [Option.bind_eq_some_iff]
  | some message => simp

theorem ofFields?_other (h : StringUnit.text? units = some name) (htype : name ≠ "__type")
    (hmessage : name ∉ ["message", "Message"]) :
    ofFields? body ((units, d) :: fields) = ofFields? body fields := by
  have hmessage : ¬ (decide (name = "message") || decide (name = "Message")) = true := by
    simpa using hmessage
  rw [ofFields?, h, Option.bind_eq_bind, Option.bind_some, if_neg htype, if_neg hmessage]

/-- Fields are read one after another to what they say together. -/
theorem ofFields?_eq_some_iff :
    ofFields? body fields = some result ↔
      (∀ f ∈ fields, (StringUnit.text? f.1).isSome = true) ∧
        Fills body.errorType (valuesOf ["__type"] fields) result.errorType ∧
        Fills body.message (valuesOf ["message", "Message"] fields) result.message := by
  induction fields generalizing body with
  | nil =>
    have hbody : body = result ↔
        body.errorType = result.errorType ∧ body.message = result.message := by
      cases body
      cases result
      simp
    have hvalues : ∀ names, valuesOf names [] = [] := fun names => rfl
    rw [ofFields?, hvalues, hvalues, fills_nil, fills_nil, Option.some.injEq, hbody]
    simp
  | cons f fields ih =>
    obtain ⟨units, d⟩ := f
    rw [List.forall_mem_cons]
    cases hname : StringUnit.text? units with
    | none => simp [ofFields?, hname]
    | some name =>
      rw [Option.isSome_some, and_iff_right rfl]
      by_cases htype : name = "__type"
      · subst htype
        rw [valuesOf_cons_of_mem hname (by simp), valuesOf_cons_of_not_mem hname (by simp),
          ofFields?_errorType hname, fills_cons]
        simp only [ih]
        grind
      have htype' : name ∉ ["__type"] := by simpa using htype
      by_cases hmessage : name ∈ ["message", "Message"]
      · rw [valuesOf_cons_of_not_mem hname htype', valuesOf_cons_of_mem hname hmessage,
          ofFields?_message hname hmessage, fills_cons]
        simp only [ih]
        grind
      · rw [valuesOf_cons_of_not_mem hname htype', valuesOf_cons_of_not_mem hname hmessage,
          ofFields?_other hname htype hmessage]
        exact ih

end Fields

/-! ## Bodies -/

/-- A tree is read as a body exactly if it says the body. -/
theorem ofDraft?_eq_some_iff {d : Draft} {body : Body} : ofDraft? d = some body ↔ Says d body := by
  constructor
  · intro h
    cases d with
    | object fields =>
      obtain ⟨hnames, htype, hmessage⟩ := ofFields?_eq_some_iff.1 h
      exact .object hnames htype hmessage
    | array elements =>
      rcases elements with _ | ⟨d, _ | ⟨m, _ | ⟨more, elements⟩⟩⟩
      · cases h
        exact .empty
      · obtain ⟨type, htype, h⟩ := Option.bind_eq_some_iff.1 h
        cases h
        obtain ⟨units, rfl, hunits⟩ := text?_eq_some_iff.1 htype
        exact .errorType hunits
      · obtain ⟨type, htype, h⟩ := Option.bind_eq_some_iff.1 h
        obtain ⟨message, hmessage, h⟩ := Option.bind_eq_some_iff.1 h
        cases h
        obtain ⟨units, rfl, hunits⟩ := text?_eq_some_iff.1 htype
        obtain ⟨units', rfl, hunits'⟩ := text?_eq_some_iff.1 hmessage
        exact .both hunits hunits'
      · cases h
    | _ => cases h
  · intro h
    cases h with
    | object hnames htype hmessage =>
      exact ofFields?_eq_some_iff.2 ⟨hnames, htype, hmessage⟩
    | empty => rfl
    | errorType htype =>
      rw [ofDraft?, text?, htype]
      rfl
    | both htype hmessage =>
      rw [ofDraft?, text?, text?, htype, hmessage]
      rfl

end Body

/-- Bytes that say what went wrong: they are the bytes of a tree that does. -/
def ErrorBody (bytes : List UInt8) (body : Body) : Prop :=
  ∃ d : Json.Draft, Json.Lexeme.Text d.lexemes bytes ∧ Body.Says d body

/-- A body is read exactly from the bytes of an error body. -/
theorem Body.ofBytes?_eq_some_iff {bytes : List UInt8} {body : Body} :
    Body.ofBytes? bytes = some body ↔ ErrorBody bytes body := by
  unfold Body.ofBytes? ErrorBody
  rw [Option.bind_eq_bind, Option.bind_eq_some_iff]
  simp only [Json.Draft.ofBytes?_eq_some_iff, Body.ofDraft?_eq_some_iff]

/-- Bytes say one thing only. -/
theorem ErrorBody.unique {bytes : List UInt8} {body body' : Body} (h : ErrorBody bytes body)
    (h' : ErrorBody bytes body') : body = body' := by
  have hread := Body.ofBytes?_eq_some_iff.2 h
  rw [Body.ofBytes?_eq_some_iff.2 h'] at hread
  exact (Option.some.inj hread).symm

end ServiceError

end ItemStore
