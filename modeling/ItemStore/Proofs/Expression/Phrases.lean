import ItemStore.Expression.Bundle
import ItemStore.Proofs.Expression.Resolution

/-!
# Phrases

A *phrase* is what the text of an expression would be if names and values could stand in it
themselves.  Every condition, update and projection has one, read off its tree with no placeholder
and no supply of words anywhere.

`Spells b text p` says that a text stands for a phrase under bindings.  Texts that are put together
stand for phrases that are put together (`Spells.append`, `Spells.literal_append`,
`Spells.joined`), and more bindings do no harm (`Spells.mono`).
-/

namespace ItemStore

/-- Characters that stand for themselves, and names and values. -/
abbrev Phrase := List (Sign Binding)

namespace Phrase

/-- A name alone. -/
def name (text : String) : Phrase := [.placeholder (.name text)]

/-- A value alone. -/
def value (v : AttributeValue) : Phrase := [.placeholder (.value v)]

/-- Phrases with a separator between them. -/
def joined (separator : String) (ps : List Phrase) : Phrase :=
  (Sign.literal separator).intercalate ps

/-- A function applied to arguments. -/
def call (function : String) (arguments : List Phrase) : Phrase :=
  Sign.literal (function ++ "(") ++ joined ", " arguments ++ Sign.literal ")"

/-- The parts of a conjunction or disjunction, in parentheses where there are several inside another
condition. -/
def join (nested : Bool) (word : String) (parts : List Phrase) : Phrase :=
  let joined := joined (" " ++ word ++ " ") parts
  if nested && parts.length > 1 then Sign.literal "(" ++ joined ++ Sign.literal ")" else joined

theorem joined_cons_cons (separator : String) (p p' : Phrase) (ps : List Phrase) :
    joined separator (p :: p' :: ps) =
      p ++ (Sign.literal separator ++ joined separator (p' :: ps)) := by
  simp [joined, List.intercalate, List.intersperse]

theorem joined_singleton (separator : String) (p : Phrase) : joined separator [p] = p := by
  simp [joined, List.intercalate, List.intersperse]

/-- A joined phrase has everything in it that its parts have. -/
theorem subset_joined {separator : String} {p : Phrase} {ps : List Phrase} (h : p ∈ ps) :
    p ⊆ joined separator ps := by
  induction ps with
  | nil => cases h
  | cons q qs ih =>
    cases qs with
    | nil =>
      rw [List.mem_singleton.1 h, joined_singleton]
      exact List.Subset.refl _
    | cons q' qs =>
      rw [joined_cons_cons]
      rcases List.mem_cons.1 h with rfl | h
      · exact List.subset_append_left ..
      · exact List.subset_append_of_subset_right _ (List.subset_append_of_subset_right _ (ih h))

/-- Something stands in a joined phrase if something stands in one of its parts. -/
theorem joined_ne_nil {separator : String} {p : Phrase} {ps : List Phrase} (h : p ∈ ps)
    (hp : p ≠ []) : joined separator ps ≠ [] := by
  intro hnil
  have hsub : p ⊆ joined separator ps := subset_joined h
  rw [hnil] at hsub
  exact hp (List.subset_nil.1 hsub)

end Phrase

/-! ## The phrases of sources -/

/-- The steps of a path after the first one. -/
def Path.phraseRest : List PathElement → Phrase
  | [] => []
  | .name text :: rest => Sign.literal "." ++ Phrase.name text ++ phraseRest rest
  | .index n :: rest => Sign.literal (Scribe.indexText n) ++ phraseRest rest

/-- The steps of a path. -/
def Path.phraseElements : List PathElement → Phrase
  | .name text :: rest => Phrase.name text ++ phraseRest rest
  | elements => phraseRest elements

/-- The phrase of a path. -/
def Path.phrase (p : Path) : Phrase := phraseElements p.elements

/-- The phrase of a subject. -/
def Subject.phrase : Subject Path → Phrase
  | .path p => p.phrase
  | .size p => Phrase.call "size" [p.phrase]

namespace Condition

mutual

/-- The phrase of a condition, which stands inside another one or on its own. -/
def phrase (nested : Bool) : Condition Path → Phrase
  | .all children => Phrase.join nested "AND" (phraseAll children)
  | .any children => Phrase.join nested "OR" (phraseAll children)
  | .not child => Sign.literal "NOT " ++ phrase true child
  | .compare subject op value => subject.phrase ++ Sign.literal op.sign ++ Phrase.value value
  | .between subject low high =>
    subject.phrase ++ Sign.literal " BETWEEN " ++ Phrase.value low ++ Sign.literal " AND " ++
      Phrase.value high
  | .oneOf subject values =>
    subject.phrase ++ Sign.literal " " ++ Phrase.call "IN " (values.map Phrase.value)
  | .beginsWith path value => Phrase.call "begins_with" [path.phrase, Phrase.value value]
  | .contains path value => Phrase.call "contains" [path.phrase, Phrase.value value]
  | .present path => Phrase.call "attribute_exists" [path.phrase]
  | .absent path => Phrase.call "attribute_not_exists" [path.phrase]
  | .hasKind path kind =>
    Phrase.call "attribute_type" [path.phrase, Phrase.value (.string kind.descriptor)]

/-- The phrases of the parts of a conjunction or disjunction. -/
def phraseAll : List (Condition Path) → List Phrase
  | [] => []
  | c :: rest => phrase true c :: phraseAll rest

end

end Condition

/-- The phrase of an action. -/
def UpdateAction.phrase (a : UpdateAction Path) : Phrase :=
  let p := a.path.phrase
  match a with
  | .set _ v false => p ++ Sign.literal "=" ++ Phrase.value v
  | .set _ v true =>
    p ++ Sign.literal "=if_not_exists(" ++ p ++ Sign.literal "," ++ Phrase.value v ++
      Sign.literal ")"
  | .remove _ => p
  | .add _ v => p ++ Sign.literal " " ++ Phrase.value v
  | .delete _ v => p ++ Sign.literal " " ++ Phrase.value v
  | .append _ v =>
    p ++ Sign.literal "=list_append(" ++ p ++ Sign.literal "," ++ Phrase.value v ++
      Sign.literal ")"
  | .prepend _ v =>
    p ++ Sign.literal "=list_append(" ++ Phrase.value v ++ Sign.literal "," ++ p ++
      Sign.literal ")"
  | .increment _ v => p ++ Sign.literal "=" ++ p ++ Sign.literal "+" ++ Phrase.value v
  | .decrement _ v => p ++ Sign.literal "=" ++ p ++ Sign.literal "-" ++ Phrase.value v

namespace Update

/-- The phrase of a clause with its actions. -/
def clausePhrase (k : UpdateClause) (actions : List (UpdateAction Path)) : Phrase :=
  Sign.literal (k.keyword ++ " ") ++ Phrase.joined ", " (actions.map UpdateAction.phrase)

/-- The phrases of the clauses that have actions. -/
def clausePhrases (actions : List (UpdateAction Path)) (ks : List UpdateClause) : List Phrase :=
  (ks.filter fun k => !(ofClause k actions).isEmpty).map fun k =>
    clausePhrase k (ofClause k actions)

/-- The phrase of an update: clause after clause, the actions of each in their order. -/
def phrase (actions : List (UpdateAction Path)) : Phrase :=
  Phrase.joined " " (clausePhrases actions UpdateClause.all)

end Update

/-- The phrase of a projection. -/
def Projection.phrase (paths : List Path) : Phrase := Phrase.joined ", " (paths.map Path.phrase)

/-! ## Phrases with names only -/

/-- Whether no value stands in a phrase. -/
def Phrase.Nominal (p : Phrase) : Prop := ∀ v, .placeholder (.value v) ∉ p

theorem Phrase.nominal_literal (l : String) : Nominal (Sign.literal l) := by
  simp [Nominal, Sign.literal]

theorem Phrase.nominal_name (text : String) : Nominal (name text) := by
  simp [Nominal, name]

theorem Phrase.Nominal.append {p q : Phrase} (hp : p.Nominal) (hq : Nominal q) :
    Nominal (p ++ q) :=
  fun v hv => (List.mem_append.1 hv).elim (hp v) (hq v)

theorem Phrase.nominal_joined (separator : String) {ps : List Phrase} (h : ∀ p ∈ ps, p.Nominal) :
    (joined separator ps).Nominal := by
  induction ps with
  | nil => simp [Nominal, joined]
  | cons p ps ih =>
    have hp := h p (List.mem_cons_self ..)
    have hps := ih fun q hq => h q (List.mem_cons_of_mem _ hq)
    cases ps with
    | nil => rwa [joined_singleton]
    | cons p' ps =>
      rw [joined_cons_cons]
      exact hp.append ((nominal_literal separator).append hps)

theorem Path.nominal_phraseRest (es : List PathElement) : (phraseRest es).Nominal := by
  induction es with
  | nil => simp [Phrase.Nominal, phraseRest]
  | cons e es ih =>
    cases e with
    | name text =>
      exact ((Phrase.nominal_literal ".").append (Phrase.nominal_name text)).append ih
    | index n => exact (Phrase.nominal_literal _).append ih

theorem Path.nominal_phrase (p : Path) : p.phrase.Nominal := by
  obtain ⟨es⟩ := p
  cases es with
  | nil => exact nominal_phraseRest []
  | cons e es =>
    cases e with
    | name text => exact (Phrase.nominal_name text).append (nominal_phraseRest es)
    | index n => exact nominal_phraseRest (.index n :: es)

theorem Projection.nominal_phrase (paths : List Path) : (phrase paths).Nominal := by
  refine Phrase.nominal_joined _ fun p hp => ?_
  obtain ⟨path, -, rfl⟩ := List.mem_map.1 hp
  exact path.nominal_phrase

/-! ## Texts that stand for phrases -/

/-- Whether a text is cut off from whatever follows it apart. -/
def Ends (text : String) : Prop :=
  ∀ rest, Apart rest → signsOfChars (text.toList ++ rest) = signs text ++ signsOfChars rest

/-- Whether no character of a text begins a placeholder. -/
def Literal (text : String) : Prop := ∀ c ∈ text.toList, Piece.isSigil c = false

instance (text : String) : Decidable (Literal text) :=
  inferInstanceAs (Decidable (∀ c ∈ text.toList, Piece.isSigil c = false))

/-- Whether everything that is bound stays bound to the same. -/
def Bindings.Within (b b' : Bindings) : Prop := ∀ t x, b.find? t = some x → b'.find? t = some x

theorem Bindings.Within.refl (b : Bindings) : b.Within b := fun _ _ h => h

theorem Bindings.Within.trans {b b' b'' : Bindings} (h : b.Within b') (h' : b'.Within b'') :
    b.Within b'' :=
  fun t x hx => h' t x (h t x hx)

/-- Whether a text stands for a phrase under bindings. -/
structure Spells (b : Bindings) (text : String) (p : Phrase) : Prop where
  /-- Nothing that follows apart changes how the text is read. -/
  ends : Ends text
  /-- With what is bound in the place of its placeholders, the text is the phrase. -/
  resolve : b.resolve text = p.map (Sign.map some)

section Spells

variable {b b' : Bindings} {t u : String} {p q : Phrase}

theorem signs_literal {l : String} (h : Literal l) (cs : List Char) :
    signsOfChars (l.toList ++ cs) = Sign.literal l ++ signsOfChars cs :=
  signs_literal_append h cs

theorem signs_append (h : Ends t) (ha : Apart u.toList) : signs (t ++ u) = signs t ++ signs u := by
  rw [signs, String.toList_append]
  exact h u.toList ha

theorem tokensOf_append (h : Ends t) (ha : Apart u.toList) :
    tokensOf (t ++ u) = tokensOf t ++ tokensOf u := by
  rw [tokensOf_eq, tokensOf_eq, tokensOf_eq, signs_append h ha, List.filterMap_append]

theorem tokensOf_literal {l : String} (h : Literal l) : tokensOf l = [] := by
  have hsigns : signs l = Sign.literal l := by
    have hl := signs_literal h []
    rwa [List.append_nil, signsOfChars_nil, List.append_nil] at hl
  rw [tokensOf_eq, hsigns]
  simp [Sign.literal, Function.comp_def, Sign.placeholder?]

theorem Ends.append (h : Ends t) (h' : Ends u) (ha : Apart u.toList) : Ends (t ++ u) := by
  intro rest hrest
  rw [signs_append h ha, String.toList_append, List.append_assoc, h _ (ha.append hrest), h' _ hrest,
    List.append_assoc]

/-- Texts behind one another stand for phrases behind one another, if they are apart. -/
theorem Spells.append (h : Spells b t p) (h' : Spells b u q) (ha : Apart u.toList) :
    Spells b (t ++ u) (p ++ q) where
  ends := h.ends.append h'.ends ha
  resolve := by
    rw [Bindings.resolve, signs_append h.ends ha, List.map_append, List.map_append, ← h.resolve,
      ← h'.resolve]
    rfl

/-- Literal text may stand before anything. -/
theorem Spells.literal_append {l : String} (hl : Literal l) (h : Spells b t p) :
    Spells b (l ++ t) (Sign.literal l ++ p) where
  ends := by
    intro rest hrest
    rw [signs, String.toList_append, List.append_assoc, signs_literal hl, signs_literal hl,
      h.ends rest hrest, List.append_assoc]
    rfl
  resolve := by
    rw [Bindings.resolve, signs, String.toList_append, signs_literal hl, List.map_append,
      List.map_append, Sign.map_literal, Sign.map_literal, ← h.resolve]
    rfl

theorem spells_empty (b : Bindings) : Spells b "" [] := by
  refine ⟨fun rest _ => ?_, ?_⟩
  · simp [signs]
  · simp [Bindings.resolve, signs]

theorem spells_literal {l : String} (hl : Literal l) : Spells b l (Sign.literal l) := by
  have h := (spells_empty b).literal_append hl
  rwa [String.append_empty, List.append_nil] at h

/-- Literal text that begins apart may stand behind anything. -/
theorem Spells.append_literal (h : Spells b t p) {l : String} (hl : Literal l)
    (ha : Apart l.toList) : Spells b (t ++ l) (p ++ Sign.literal l) :=
  h.append (spells_literal hl) ha

theorem spells_token {x : Binding} (ht : IsToken t) (hx : b.find? t = some x) :
    Spells b t [.placeholder x] := by
  refine ⟨fun rest hrest => ?_, ?_⟩
  · rw [signs_token ht, signs_token_append ht hrest]
    rfl
  · rw [Bindings.resolve, signs_token ht, List.map_singleton, Sign.map_placeholder, hx]
    rfl

theorem resolve_mono (h : b.Within b') {ss : List (Sign String)}
    (hs : ss.map (Sign.map b.find?) = p.map (Sign.map some)) :
    ss.map (Sign.map b'.find?) = p.map (Sign.map some) := by
  induction ss generalizing p with
  | nil => exact hs
  | cons s ss ih =>
    cases p with
    | nil => cases hs
    | cons s' p =>
      obtain ⟨hhead, htail⟩ := List.cons_eq_cons.1 hs
      rw [List.map_cons, List.map_cons, ih htail]
      congr 1
      cases s with
      | char c => exact hhead
      | placeholder t =>
        cases s' with
        | char c => cases hhead
        | placeholder x =>
          have hx : b.find? t = some x := Sign.placeholder.inj hhead
          rw [Sign.map_placeholder, Sign.map_placeholder, h t x hx]

/-- More bindings do no harm. -/
theorem Spells.mono (h : Spells b t p) (hb : b.Within b') : Spells b' t p :=
  ⟨h.ends, resolve_mono hb h.resolve⟩

/-- Texts with a separator between them stand for phrases with the separator between them. -/
theorem Spells.joined {separator : String} (hl : Literal separator)
    (ha : ∀ rest, Apart (separator.toList ++ rest)) {ts : List String} {ps : List Phrase}
    (h : List.Forall₂ (Spells b) ts ps) :
    Spells b (separator.intercalate ts) (Phrase.joined separator ps) := by
  induction h with
  | nil => exact spells_empty b
  | @cons t p ts ps hhead hrest ih =>
    cases hrest with
    | nil => simpa [Phrase.joined] using hhead
    | @cons t' p' ts ps =>
      have hsep : Apart (separator ++ separator.intercalate (t' :: ts)).toList := by
        rw [String.toList_append]
        exact ha _
      have htail := hhead.append (ih.literal_append hl) hsep
      rw [String.intercalate_cons_cons, String.append_assoc]
      simpa [Phrase.joined, List.intercalate, List.intersperse] using htail

/-- A text says what the phrase says that it stands for. -/
theorem Spells.says (h : Spells b t p) : Says (b.resolve t) (p.map (Sign.map some)) := by
  rw [h.resolve]
  exact says_bound p

/-- Every placeholder in a text that stands for a phrase is bound. -/
theorem Spells.exists_find? (h : Spells b t p) {k : String} (hk : k ∈ tokensOf t) :
    ∃ x, b.find? k = some x := by
  have hmem : Sign.placeholder (b.find? k) ∈ p.map (Sign.map some) := by
    rw [← h.resolve]
    exact List.mem_map.2 ⟨_, mem_tokensOf.1 hk, rfl⟩
  obtain ⟨s, -, hs⟩ := List.mem_map.1 hmem
  cases s with
  | char c => cases hs
  | placeholder x => exact ⟨x, (Sign.placeholder.inj hs).symm⟩

/-- A text is empty exactly if it stands for nothing. -/
theorem Spells.eq_empty_iff (h : Spells b t p) : t = "" ↔ p = [] := by
  have hresolve := h.resolve
  constructor
  · rintro rfl
    rw [(spells_empty b).resolve] at hresolve
    simpa using hresolve.symm
  · rintro rfl
    have hsigns : signs t = [] := by simpa [Bindings.resolve] using hresolve
    exact eq_of_signs_eq (by rw [hsigns]; simp [signs])

end Spells

end ItemStore
