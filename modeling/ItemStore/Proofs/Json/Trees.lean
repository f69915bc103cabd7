import Mathlib.Data.List.Basic
import ItemStore.Json.Draft

/-!
# The tree of JSON text

A tree is written with its lexemes (`Draft.lexemes`): containers with their brackets, what they hold
with commas between.  The second pass reads exactly this, so a tree and its lexemes determine one
another (`Draft.arrange_eq_some_iff`).

* `Draft.Reads` relates a state and its open containers to the lexemes that were read; a step reads
  one lexeme more (`Reads.step`), and so does a run (`Reads.arrange`).
* `Draft.arrange_lexemes`: what a tree is written with is read as the tree, wherever it stands.
-/

namespace ItemStore

namespace Json

/-! ## The lexemes of a tree -/

namespace Draft

mutual

/-- The lexemes that a tree is written with. -/
def lexemes : Draft → List Lexeme
  | .null => [.null]
  | .bool b => [.bool b]
  | .number literal => [.number literal]
  | .string units => [.string units]
  | .array elements =>
    .openArray :: ([.comma].intercalate (elementLexemes elements) ++ [.closeArray])
  | .object fields =>
    .openObject :: ([.comma].intercalate (fieldLexemes fields) ++ [.closeObject])

/-- The lexemes of each element. -/
def elementLexemes : List Draft → List (List Lexeme)
  | [] => []
  | d :: rest => d.lexemes :: elementLexemes rest

/-- The lexemes of each field, its name first. -/
def fieldLexemes : List (List StringUnit × Draft) → List (List Lexeme)
  | [] => []
  | (name, d) :: rest => (.string name :: .colon :: d.lexemes) :: fieldLexemes rest

end

theorem elementLexemes_append (ds ds' : List Draft) :
    elementLexemes (ds ++ ds') = elementLexemes ds ++ elementLexemes ds' := by
  induction ds with
  | nil => rfl
  | cons d ds ih => exact congrArg (d.lexemes :: ·) ih

theorem fieldLexemes_append (fs fs' : List (List StringUnit × Draft)) :
    fieldLexemes (fs ++ fs') = fieldLexemes fs ++ fieldLexemes fs' := by
  induction fs with
  | nil => rfl
  | cons f fs ih => exact congrArg ((.string f.1 :: .colon :: f.2.lexemes) :: ·) ih

/-- Parts with a comma behind each. -/
def ended (parts : List (List Lexeme)) : List Lexeme := parts.flatMap (· ++ [.comma])

/-- Commas between parts are commas behind all but the last. -/
theorem intercalate_concat (parts : List (List Lexeme)) (p : List Lexeme) :
    [Lexeme.comma].intercalate (parts ++ [p]) = ended parts ++ p := by
  induction parts with
  | nil => simp [ended]
  | cons q parts ih =>
    have hne : parts ++ [p] ≠ [] := by simp
    rw [List.cons_append, List.intercalate_cons_of_ne_nil hne, ih]
    simp [ended]

/-- The lexemes of what is open, with the outermost container first. -/
def opened : List OpenDraft → List Lexeme
  | [] => []
  | .array done :: stack => opened stack ++ .openArray :: ended (elementLexemes done.reverse)
  | .object done name :: stack =>
    opened stack ++ .openObject :: ended (fieldLexemes done.reverse) ++ [.string name, .colon]

/-! ## What was read -/

/-- How a state and its open containers come about by reading lexemes. -/
inductive Reads : DraftState → List OpenDraft → List Lexeme → Prop
  | value (stack : List OpenDraft) : Reads .value stack (opened stack)
  | firstElement (stack : List OpenDraft) :
      Reads .firstElement (.array [] :: stack) (opened stack ++ [.openArray])
  | firstField (stack : List OpenDraft) :
      Reads (.firstField []) stack (opened stack ++ [.openObject])
  | fieldName (stack : List OpenDraft) (done : List (List StringUnit × Draft)) :
      Reads (.fieldName done) stack
        (opened stack ++ .openObject :: ended (fieldLexemes done.reverse))
  | colon (stack : List OpenDraft) (done : List (List StringUnit × Draft))
      (name : List StringUnit) :
      Reads (.colon done name) stack
        (opened stack ++ .openObject :: ended (fieldLexemes done.reverse) ++ [.string name])
  | element (stack : List OpenDraft) (done : List Draft) (d : Draft) :
      Reads (.afterValue (.array (d :: done))) stack (opened (.array done :: stack) ++ d.lexemes)
  | field (stack : List OpenDraft) (done : List (List StringUnit × Draft))
      (name : List StringUnit) (d : Draft) :
      Reads (.afterValue (.object ((name, d) :: done) [])) stack
        (opened (.object done name :: stack) ++ d.lexemes)
  | finished (d : Draft) : Reads (.finished d) [] d.lexemes

section Soundness

variable {state : DraftState} {stack : List OpenDraft} {l : Lexeme} {ls : List Lexeme}
  {next : DraftState × List OpenDraft}

/-- A complete value was read behind what is open. -/
theorem reads_place (d : Draft) (stack : List OpenDraft) :
    Reads (place d stack).1 (place d stack).2 (opened stack ++ d.lexemes) := by
  cases stack with
  | nil => exact .finished d
  | cons inner stack =>
    cases inner with
    | array done => exact .element stack done d
    | object done name => exact .field stack done name d

theorem reads_startValue (h : startValue stack l = some next) :
    Reads next.1 next.2 (opened stack ++ [l]) := by
  cases l with
  | null =>
    cases h
    exact reads_place .null stack
  | bool b =>
    cases h
    exact reads_place (.bool b) stack
  | number literal =>
    cases h
    exact reads_place (.number literal) stack
  | string units =>
    cases h
    exact reads_place (.string units) stack
  | openArray =>
    cases h
    exact .firstElement stack
  | openObject =>
    cases h
    exact .firstField stack
  | _ => cases h

/-- A closed array was read with all its elements. -/
theorem reads_closeArray (done : List Draft) (d : Draft) (stack : List OpenDraft) :
    Reads (place (.array (d :: done).reverse) stack).1 (place (.array (d :: done).reverse) stack).2
      (opened (.array done :: stack) ++ d.lexemes ++ [.closeArray]) := by
  have helements : elementLexemes (d :: done).reverse =
      elementLexemes done.reverse ++ [d.lexemes] := by
    rw [List.reverse_cons, elementLexemes_append]
    rfl
  have hread := reads_place (.array (d :: done).reverse) stack
  rw [lexemes, helements, intercalate_concat] at hread
  simpa [opened] using hread

/-- A closed object was read with all its fields. -/
theorem reads_closeObject (done : List (List StringUnit × Draft)) (name : List StringUnit)
    (d : Draft) (stack : List OpenDraft) :
    Reads (place (.object ((name, d) :: done).reverse) stack).1
      (place (.object ((name, d) :: done).reverse) stack).2
      (opened (.object done name :: stack) ++ d.lexemes ++ [.closeObject]) := by
  have hfields : fieldLexemes ((name, d) :: done).reverse =
      fieldLexemes done.reverse ++ [.string name :: .colon :: d.lexemes] := by
    rw [List.reverse_cons, fieldLexemes_append]
    rfl
  have hread := reads_place (.object ((name, d) :: done).reverse) stack
  rw [lexemes, hfields, intercalate_concat] at hread
  simpa [opened] using hread

/-- A comma makes an element one of those before the next. -/
theorem opened_element (done : List Draft) (d : Draft) (stack : List OpenDraft) :
    opened (.array (d :: done) :: stack) =
      opened (.array done :: stack) ++ d.lexemes ++ [.comma] := by
  simp [opened, elementLexemes_append, elementLexemes, ended]

theorem ended_field (done : List (List StringUnit × Draft)) (name : List StringUnit) (d : Draft) :
    ended (fieldLexemes ((name, d) :: done).reverse) =
      ended (fieldLexemes done.reverse) ++ .string name :: .colon :: (d.lexemes ++ [.comma]) := by
  simp [fieldLexemes_append, fieldLexemes, ended]

/-- A step reads one lexeme more. -/
theorem Reads.step (hreads : Reads state stack ls) (h : Draft.step state stack l = some next) :
    Reads next.1 next.2 (ls ++ [l]) := by
  cases hreads with
  | value => exact reads_startValue h
  | firstElement stack =>
    have hopened : opened stack ++ [Lexeme.openArray] = opened (.array [] :: stack) := by
      simp [opened, ended, elementLexemes]
    cases l with
    | closeArray =>
      cases h
      have hread := reads_place (.array []) stack
      simpa [lexemes, elementLexemes] using hread
    | _ =>
      rw [hopened]
      exact reads_startValue h
  | firstField stack =>
    cases l with
    | closeObject =>
      cases h
      have hread := reads_place (.object []) stack
      simpa [lexemes, fieldLexemes] using hread
    | string units =>
      cases h
      have hread := Reads.colon stack [] units
      simpa [ended, fieldLexemes] using hread
    | _ => cases h
  | fieldName stack done =>
    cases l with
    | string units =>
      cases h
      exact .colon stack done units
    | _ => cases h
  | colon stack done name =>
    cases l with
    | colon =>
      cases h
      have hread := Reads.value (.object done name :: stack)
      simpa [opened] using hread
    | _ => cases h
  | element stack done d =>
    cases l with
    | comma =>
      cases h
      rw [← opened_element]
      exact .value (.array (d :: done) :: stack)
    | closeArray =>
      cases h
      exact reads_closeArray done d stack
    | _ => cases h
  | field stack done name d =>
    cases l with
    | comma =>
      cases h
      have hread := Reads.fieldName stack ((name, d) :: done)
      rw [ended_field] at hread
      simpa [opened] using hread
    | closeObject =>
      cases h
      exact reads_closeObject done name d stack
    | _ => cases h
  | finished d => cases h

/-- A run that ends with a tree has read the lexemes of the tree. -/
theorem Reads.arrange {d : Draft} {rest : List Lexeme} (hreads : Reads state stack ls)
    (h : Draft.arrange state stack rest = some d) : ls ++ rest = d.lexemes := by
  induction rest generalizing state stack ls with
  | nil =>
    cases hreads with
    | finished d' =>
      cases h
      exact List.append_nil _
    | _ => cases h
  | cons l rest ih =>
    unfold Draft.arrange at h
    split at h
    · rename_i hstep
      rw [← List.singleton_append, ← List.append_assoc]
      exact ih (hreads.step hstep) h
    · cases h

end Soundness

/-! ## What is read -/

section Completeness

theorem arrange_cons {state : DraftState} {stack : List OpenDraft} {l : Lexeme}
    {next : DraftState × List OpenDraft} (h : step state stack l = some next)
    (rest : List Lexeme) :
    arrange state stack (l :: rest) = arrange next.1 next.2 rest := by
  rw [arrange, h]

/-- The first element of an array is read as any other value. -/
theorem arrange_firstElement (d : Draft) (stack : List OpenDraft) (rest : List Lexeme) :
    arrange .firstElement stack (d.lexemes ++ rest) = arrange .value stack (d.lexemes ++ rest) := by
  cases d <;> rfl

theorem intercalate_elements (d : Draft) (ds : List Draft) :
    ∃ more, [Lexeme.comma].intercalate (elementLexemes (d :: ds)) = d.lexemes ++ more := by
  rw [elementLexemes]
  cases elementLexemes ds with
  | nil => exact ⟨[], by rw [List.intercalate_singleton, List.append_nil]⟩
  | cons p parts => exact ⟨_, by rw [List.intercalate_cons_cons, List.append_assoc]⟩

theorem intercalate_fields (name : List StringUnit) (d : Draft)
    (fs : List (List StringUnit × Draft)) :
    ∃ more, [Lexeme.comma].intercalate (fieldLexemes ((name, d) :: fs)) = .string name :: more := by
  rw [fieldLexemes]
  cases fieldLexemes fs with
  | nil => exact ⟨_, List.intercalate_singleton⟩
  | cons p parts => exact ⟨_, by rw [List.intercalate_cons_cons]; rfl⟩

mutual

/-- What a tree is written with is read as the tree, wherever it stands. -/
theorem arrange_lexemes : ∀ (d : Draft) (stack : List OpenDraft) (rest : List Lexeme),
    arrange .value stack (d.lexemes ++ rest) = arrange (place d stack).1 (place d stack).2 rest
  | .null, _, _ => rfl
  | .bool _, _, _ => rfl
  | .number _, _, _ => rfl
  | .string _, _, _ => rfl
  | .array [], _, _ => rfl
  | .array (d :: ds), stack, rest => by
    have hopen : step .value stack .openArray = some (.firstElement, .array [] :: stack) := rfl
    obtain ⟨more, hmore⟩ := intercalate_elements d ds
    have helements := arrange_elements (d :: ds) (List.cons_ne_nil d ds) [] stack rest
    rw [hmore, List.append_assoc] at helements
    rw [lexemes, List.cons_append, List.append_assoc, arrange_cons hopen, hmore, List.append_assoc,
      arrange_firstElement]
    exact helements
  | .object [], _, _ => rfl
  | .object ((name, d) :: fs), stack, rest => by
    have hopen : step .value stack .openObject = some (.firstField [], stack) := rfl
    obtain ⟨more, hmore⟩ := intercalate_fields name d fs
    have hfields := arrange_fields ((name, d) :: fs) (List.cons_ne_nil _ fs) [] stack rest
    rw [hmore] at hfields
    rw [lexemes, List.cons_append, List.append_assoc, arrange_cons hopen, hmore]
    exact hfields

/-- The elements of an array are read behind those that were read before. -/
theorem arrange_elements : ∀ (ds : List Draft), ds ≠ [] → ∀ (done : List Draft)
    (stack : List OpenDraft) (rest : List Lexeme),
    arrange .value (.array done :: stack)
        ([Lexeme.comma].intercalate (elementLexemes ds) ++ .closeArray :: rest) =
      arrange (place (.array (done.reverse ++ ds)) stack).1
        (place (.array (done.reverse ++ ds)) stack).2 rest
  | [d], _, done, stack, rest => by
    have hclose : step (.afterValue (.array (d :: done))) stack .closeArray =
        some (place (.array (d :: done).reverse) stack) := rfl
    rw [elementLexemes, elementLexemes, List.intercalate_singleton, arrange_lexemes d]
    show arrange (.afterValue (.array (d :: done))) stack _ = _
    rw [arrange_cons hclose, List.reverse_cons]
  | d :: d' :: ds, _, done, stack, rest => by
    have hcomma : step (.afterValue (.array (d :: done))) stack .comma =
        some (.value, .array (d :: done) :: stack) := rfl
    have hrest := arrange_elements (d' :: ds) (List.cons_ne_nil d' ds) (d :: done) stack rest
    rw [List.reverse_cons, List.append_assoc, List.singleton_append] at hrest
    rw [elementLexemes, elementLexemes, List.intercalate_cons_cons, List.append_assoc,
      List.append_assoc, arrange_lexemes d]
    show arrange (.afterValue (.array (d :: done))) stack (.comma :: _) = _
    rw [arrange_cons hcomma]
    exact hrest

/-- The fields of an object are read behind those that were read before. -/
theorem arrange_fields : ∀ (fs : List (List StringUnit × Draft)), fs ≠ [] →
    ∀ (done : List (List StringUnit × Draft)) (stack : List OpenDraft) (rest : List Lexeme),
    arrange (.fieldName done) stack
        ([Lexeme.comma].intercalate (fieldLexemes fs) ++ .closeObject :: rest) =
      arrange (place (.object (done.reverse ++ fs)) stack).1
        (place (.object (done.reverse ++ fs)) stack).2 rest
  | [(name, d)], _, done, stack, rest => by
    have hclose : step (.afterValue (.object ((name, d) :: done) [])) stack .closeObject =
        some (place (.object ((name, d) :: done).reverse) stack) := rfl
    rw [fieldLexemes, fieldLexemes, List.intercalate_singleton]
    show arrange .value (.object done name :: stack) (d.lexemes ++ _) = _
    rw [arrange_lexemes d]
    show arrange (.afterValue (.object ((name, d) :: done) [])) stack _ = _
    rw [arrange_cons hclose, List.reverse_cons]
  | (name, d) :: (name', d') :: fs, _, done, stack, rest => by
    have hcomma : step (.afterValue (.object ((name, d) :: done) [])) stack .comma =
        some (.fieldName ((name, d) :: done), stack) := rfl
    have hrest := arrange_fields ((name', d') :: fs) (List.cons_ne_nil _ fs) ((name, d) :: done)
      stack rest
    rw [List.reverse_cons, List.append_assoc, List.singleton_append] at hrest
    rw [fieldLexemes, fieldLexemes, List.intercalate_cons_cons, List.append_assoc,
      List.append_assoc]
    show arrange .value (.object done name :: stack) (d.lexemes ++ _) = _
    rw [arrange_lexemes d]
    show arrange (.afterValue (.object ((name, d) :: done) [])) stack (.comma :: _) = _
    rw [arrange_cons hcomma]
    exact hrest

end

/-- The second pass reads a tree exactly from the lexemes that it is written with. -/
theorem arrange_eq_some_iff {d : Draft} {ls : List Lexeme} :
    arrange .value [] ls = some d ↔ d.lexemes = ls := by
  constructor
  · intro h
    exact ((Reads.value []).arrange h).symm
  · rintro rfl
    have hread := arrange_lexemes d [] []
    rw [List.append_nil] at hread
    exact hread

end Completeness

end Draft

end Json

end ItemStore
