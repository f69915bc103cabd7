import ItemStore.Proofs.Expression.Meaning

/-!
# The sources of expressions

An expression of a request is built from conditions that are to hold together, from the actions of
an update, or from the paths of a projection: from a `Source`.  The phrase of a source is what its
expression is to be, without placeholders and without the way it is compiled: the conjunction of
the conditions, the actions grouped by clause, the paths without those that were there before.

`Source.Means` says the same as a relation between a source and its phrase.  The trees in between
are tied to the source by relations of their own, which keep everything but the paths and say what
these are read as (`Condition.ParsedAs`, `UpdateAction.ParsedAs`, `Path.Derives`).

* `UpdateAction.locate_eq_ok_iff`: reading the path of an action is what `ParsedAs` says.
* `Condition.chain_cons_cons`: conditions added one after another make one conjunction.
* `Update.exists_of_locate`: reading the paths clause by clause does not change the clauses.
* `Source.made_of_conditions`, `Source.made_of_update`, `Source.made_of_projection`: what a source
  compiles to stands for its phrase.
* `Source.phrase_eq_ok_iff`: and this phrase is what the source means, and nothing else is.
-/

namespace ItemStore

/-! ## Actions and their paths -/

namespace UpdateAction

/-- Whether an action is another one with its path read: an action of the same kind, with the same
value and under the same guard, and the text of the one path is derived with the steps of the
other. -/
inductive ParsedAs : UpdateAction String → UpdateAction Path → Prop
  | set {text : String} {p : Path} (v : AttributeValue) (onlyIfAbsent : Bool) :
      Path.Derives text.toList p.elements →
        ParsedAs (.set text v onlyIfAbsent) (.set p v onlyIfAbsent)
  | remove {text : String} {p : Path} : Path.Derives text.toList p.elements →
      ParsedAs (.remove text) (.remove p)
  | add {text : String} {p : Path} (v : AttributeValue) : Path.Derives text.toList p.elements →
      ParsedAs (.add text v) (.add p v)
  | delete {text : String} {p : Path} (v : AttributeValue) : Path.Derives text.toList p.elements →
      ParsedAs (.delete text v) (.delete p v)
  | append {text : String} {p : Path} (v : AttributeValue) : Path.Derives text.toList p.elements →
      ParsedAs (.append text v) (.append p v)
  | prepend {text : String} {p : Path} (v : AttributeValue) : Path.Derives text.toList p.elements →
      ParsedAs (.prepend text v) (.prepend p v)
  | increment {text : String} {p : Path} (v : AttributeValue) :
      Path.Derives text.toList p.elements → ParsedAs (.increment text v) (.increment p v)
  | decrement {text : String} {p : Path} (v : AttributeValue) :
      Path.Derives text.toList p.elements → ParsedAs (.decrement text v) (.decrement p v)

/-- Reading the path of an action changes nothing else of it. -/
theorem locate_eq_ok_iff {a : UpdateAction String} {a' : UpdateAction Path} :
    a.locate = .ok a' ↔ a.ParsedAs a' := by
  constructor
  · intro h
    obtain ⟨p, hp, h⟩ := bind_eq_ok.1 h
    cases h
    have hderives := Path.parse_eq_ok_iff_derives.1 hp
    cases a <;> constructor <;> exact hderives
  · intro h
    have hread : ∃ p, Path.parse a.path = .ok p ∧ a.withPath p = a' := by
      cases h <;> rename_i hderives <;>
        exact ⟨_, Path.parse_eq_ok_iff_derives.2 hderives, rfl⟩
    obtain ⟨p, hp, rfl⟩ := hread
    rw [locate, hp]
    rfl

/-- Reading the paths of actions, one after another, does so to each of them. -/
theorem mapM_locate_eq_ok_iff {actions : List (UpdateAction String)}
    {located : List (UpdateAction Path)} :
    actions.mapM UpdateAction.locate = .ok located ↔ List.Forall₂ ParsedAs actions located := by
  simp only [mapM_eq_ok, locate_eq_ok_iff]

end UpdateAction

/-- Texts are read as paths, one after another, if each of them is derived with the steps of its
path. -/
theorem Path.mapM_parse_eq_ok_iff {texts : List String} {read : List Path} :
    texts.mapM Path.parse = .ok read ↔
      List.Forall₂ (fun text (p : Path) => Path.Derives text.toList p.elements) texts read := by
  simp only [mapM_eq_ok, Path.parse_eq_ok_iff_derives]

/-! ## Sources and their phrases -/

/-- The conditions that a condition is a conjunction of: its parts, or itself alone. -/
def Condition.conjuncts {P : Type} : Condition P → List (Condition P)
  | .all children => children
  | c => [c]

/-- What an expression is built from. -/
inductive Source where
  /-- Conditions that are to hold together. -/
  | conditions (cs : List (Condition String))
  /-- The actions of an update. -/
  | update (actions : List (UpdateAction String))
  /-- The paths of a projection. -/
  | projection (paths : List String)

namespace Source

/-- The phrase of a source, if there is anything in it and its paths can be read. -/
def phrase : Source → Except StoreError (Option Phrase)
  | .conditions [] => return none
  | .conditions [c] => do return some ((← c.check).phrase false)
  | .conditions (c :: c' :: rest) => do
    return some ((← Condition.check (.all (c.conjuncts ++ c' :: rest))).phrase false)
  | .update [] => return none
  | .update (a :: rest) => do
    return some (Update.phrase (← (a :: rest).mapM UpdateAction.locate))
  | .projection [] => return none
  | .projection (p :: rest) => do
    return some (Projection.phrase (← (Projection.distinct (p :: rest)).mapM Path.parse))

/-- What a source is to be compiled to: nothing if there is nothing in it, and else the phrase of
the tree that it becomes when its paths are read. -/
inductive Means : Source → Option Phrase → Prop
  | noConditions : Means (.conditions []) none
  | condition {c : Condition String} {c' : Condition Path} (hfilled : c.Filled)
      (hparsed : c.ParsedAs c') : Means (.conditions [c]) (some (c'.phrase false))
  | conjunction {c₁ c₂ : Condition String} {rest : List (Condition String)} {c' : Condition Path}
      (hfilled : (Condition.all (c₁.conjuncts ++ c₂ :: rest)).Filled)
      (hparsed : (Condition.all (c₁.conjuncts ++ c₂ :: rest)).ParsedAs c') :
      Means (.conditions (c₁ :: c₂ :: rest)) (some (c'.phrase false))
  | noActions : Means (.update []) none
  | update {actions : List (UpdateAction String)} {located : List (UpdateAction Path)}
      (hne : actions ≠ []) (hparsed : List.Forall₂ UpdateAction.ParsedAs actions located) :
      Means (.update actions) (some (Update.phrase located))
  | noPaths : Means (.projection []) none
  | projection {paths : List String} {read : List Path} (hne : paths ≠ [])
      (hparsed : List.Forall₂ (fun text (p : Path) => Path.Derives text.toList p.elements)
        paths.eraseDups read) : Means (.projection paths) (some (Projection.phrase read))

/-- The phrase of a source is what the source is to be compiled to, and there is no other one. -/
theorem phrase_eq_ok_iff {s : Source} {p : Option Phrase} : s.phrase = .ok p ↔ s.Means p := by
  constructor
  · intro h
    cases s with
    | conditions cs =>
      rcases cs with _ | ⟨c₁, _ | ⟨c₂, rest⟩⟩
      · cases h
        exact .noConditions
      all_goals
        obtain ⟨c', hc', h⟩ := bind_eq_ok.1 h
        cases h
        obtain ⟨hfilled, hparsed⟩ := Condition.check_eq_ok_iff.1 hc'
      · exact .condition hfilled hparsed
      · exact .conjunction hfilled hparsed
    | update actions =>
      cases actions with
      | nil =>
        cases h
        exact .noActions
      | cons a actions =>
        obtain ⟨located, hlocated, h⟩ := bind_eq_ok.1 h
        cases h
        exact .update (List.cons_ne_nil a actions) (UpdateAction.mapM_locate_eq_ok_iff.1 hlocated)
    | projection paths =>
      cases paths with
      | nil =>
        cases h
        exact .noPaths
      | cons text paths =>
        obtain ⟨read, hread, h⟩ := bind_eq_ok.1 h
        cases h
        exact .projection (List.cons_ne_nil text paths) (Path.mapM_parse_eq_ok_iff.1 hread)
  · intro h
    cases h with
    | noConditions => rfl
    | condition hfilled hparsed =>
      exact bind_eq_ok.2 ⟨_, Condition.check_eq_ok_iff.2 ⟨hfilled, hparsed⟩, rfl⟩
    | conjunction hfilled hparsed =>
      exact bind_eq_ok.2 ⟨_, Condition.check_eq_ok_iff.2 ⟨hfilled, hparsed⟩, rfl⟩
    | noActions => rfl
    | @update actions _ hne hparsed =>
      obtain ⟨a, rest, rfl⟩ := List.exists_cons_of_ne_nil hne
      exact bind_eq_ok.2 ⟨_, UpdateAction.mapM_locate_eq_ok_iff.2 hparsed, rfl⟩
    | noPaths => rfl
    | @projection paths _ hne hparsed =>
      obtain ⟨text, rest, rfl⟩ := List.exists_cons_of_ne_nil hne
      exact bind_eq_ok.2 ⟨_, Path.mapM_parse_eq_ok_iff.2 hparsed, rfl⟩

/-- Whether an expression is what a source is to be compiled to, with words of a stem. -/
def Made (s : Source) (stem : String) (e : Expression) : Prop :=
  ∃ p, s.phrase = .ok p ∧ p ≠ some [] ∧ Spells e.bindings e.text (p.getD []) ∧ e.Stemmed stem

end Source

/-! ## Conditions -/

namespace Condition

theorem foldl_and_all {P : Type} (rest children : List (Condition P)) :
    rest.foldl Condition.and (.all children) = .all (children ++ rest) := by
  induction rest generalizing children with
  | nil => simp
  | cons c rest ih => simp [Condition.and, ih]

/-- Conditions that are added one after another make one conjunction; the first one is taken apart
if it is one itself. -/
theorem chain_cons_cons {P : Type} (c c' : Condition P) (rest : List (Condition P)) :
    chain (c :: c' :: rest) = some (.all (c.conjuncts ++ c' :: rest)) := by
  have hand : c.and c' = .all (c.conjuncts ++ [c']) := by cases c <;> rfl
  rw [chain, List.foldl_cons, hand, foldl_and_all, List.append_assoc]
  rfl

theorem phrase_ne_nil {nested : Bool} : ∀ {c : Condition Path}, c.Filled → c.phrase nested ≠ []
  | .all (c :: rest), h => by
    have hne : c.phrase true ≠ [] := phrase_ne_nil h.2.1
    rw [phrase, phraseAll, Phrase.join]
    split
    · simp [Sign.literal]
    · exact Phrase.joined_ne_nil (List.mem_cons_self ..) hne
  | .any (c :: rest), h => by
    have hne : c.phrase true ≠ [] := phrase_ne_nil h.2.1
    rw [phrase, phraseAll, Phrase.join]
    split
    · simp [Sign.literal]
    · exact Phrase.joined_ne_nil (List.mem_cons_self ..) hne
  | .all [], h => absurd rfl h.1
  | .any [], h => absurd rfl h.1
  | .not _, _ => by simp [phrase, Sign.literal]
  | .compare .., _ => by simp [phrase, Phrase.value]
  | .between .., _ => by simp [phrase, Phrase.value]
  | .oneOf .., _ => by simp [phrase, Sign.literal]
  | .beginsWith .., _ => by simp [phrase, Phrase.call, Sign.literal]
  | .contains .., _ => by simp [phrase, Phrase.call, Sign.literal]
  | .present _, _ => by simp [phrase, Phrase.call, Sign.literal]
  | .absent _, _ => by simp [phrase, Phrase.call, Sign.literal]
  | .hasKind .., _ => by simp [phrase, Phrase.call, Sign.literal]

end Condition

/-! ## Updates -/

theorem UpdateAction.clause_locate {a : UpdateAction String} {a' : UpdateAction Path}
    (h : a.locate = .ok a') : a.clause = a'.clause := by
  obtain ⟨p, -, h⟩ := bind_eq_ok.1 h
  cases h
  cases a <;> rfl

namespace Update

theorem mem_ofClause {P : Type} {k : UpdateClause} {a : UpdateAction P}
    {actions : List (UpdateAction P)} : a ∈ ofClause k actions ↔ a ∈ actions ∧ a.clause = k := by
  simp [ofClause]

/-- Grouping actions leaves every group as it is. -/
theorem ofClause_flatMap {P : Type} (k : UpdateClause) (actions : List (UpdateAction P)) :
    ofClause k (UpdateClause.all.flatMap fun k => ofClause k actions) = ofClause k actions := by
  have hgroup : ∀ k', ofClause k (ofClause k' actions) = if k = k' then ofClause k actions else []
      := by
    intro k'
    rw [ofClause, ofClause, List.filter_filter]
    split
    · rename_i h
      simp [ofClause, h]
    · rename_i h
      refine List.filter_eq_nil_iff.2 fun a _ ha => h ?_
      simp only [Bool.and_eq_true, decide_eq_true_eq] at ha
      exact ha.1.symm.trans ha.2
  have hall : ofClause k (UpdateClause.all.flatMap fun k => ofClause k actions) =
      UpdateClause.all.flatMap fun k' => ofClause k (ofClause k' actions) := by
    rw [ofClause, List.filter_flatMap]
    rfl
  rw [hall]
  simp only [hgroup]
  cases k <;> simp [UpdateClause.all]

/-- Reading the paths of actions clause by clause is reading them in their order. -/
theorem exists_of_locate {actions : List (UpdateAction String)}
    {grouped : List (UpdateAction Path)} (h : locate actions = .ok grouped) :
    ∃ located, actions.mapM UpdateAction.locate = .ok located ∧
      ∀ k, ofClause k grouped = ofClause k located := by
  have hgrouped := mapM_eq_ok.1 h
  -- every action is in the group of its clause, and so its path can be read
  have hread : ∀ a ∈ actions, ∃ a', a.locate = .ok a' := by
    intro a ha
    have hmem : a ∈ UpdateClause.all.flatMap fun k => ofClause k actions := by
      refine List.mem_flatMap.2 ⟨a.clause, ?_, mem_ofClause.2 ⟨ha, rfl⟩⟩
      cases a.clause <;> simp [UpdateClause.all]
    obtain ⟨a', -, ha'⟩ := exists_of_mem_left hgrouped hmem
    exact ⟨a', ha'⟩
  obtain ⟨located, hlocated⟩ := exists_forall₂ hread
  refine ⟨located, mapM_eq_ok.2 hlocated, fun k => ?_⟩
  have hclause : ∀ {as : List (UpdateAction String)} {as' : List (UpdateAction Path)},
      List.Forall₂ (fun a a' => a.locate = .ok a') as as' →
        List.Forall₂ (fun a a' => a.locate = .ok a') (ofClause k as) (ofClause k as') :=
    fun has => forall₂_filter (fun a a' ha => by
      rw [UpdateAction.clause_locate ha]) has
  have hleft := hclause hgrouped
  rw [ofClause_flatMap] at hleft
  exact List.right_unique_forall₂' (fun a b b' hb hb' => Except.ok.inj (hb.symm.trans hb')) hleft
    (hclause hlocated)

theorem phrase_congr {actions actions' : List (UpdateAction Path)}
    (h : ∀ k, ofClause k actions = ofClause k actions') : phrase actions = phrase actions' := by
  simp [phrase, clausePhrases, h]

theorem phrase_ne_nil {a : UpdateAction Path} {actions : List (UpdateAction Path)}
    (h : a ∈ actions) : phrase actions ≠ [] := by
  have hmem : clausePhrase a.clause (ofClause a.clause actions) ∈
      clausePhrases actions UpdateClause.all := by
    refine List.mem_map.2 ⟨a.clause, List.mem_filter.2 ⟨?_, ?_⟩, rfl⟩
    · cases a.clause <;> simp [UpdateClause.all]
    · have ha : a ∈ ofClause a.clause actions := mem_ofClause.2 ⟨h, rfl⟩
      simpa using List.ne_nil_of_mem ha
  refine Phrase.joined_ne_nil hmem ?_
  cases a.clause <;> simp [clausePhrase, Sign.literal]

/-- A compiled update stands for its actions with their paths read. -/
theorem compile_spells {actions : List (UpdateAction String)} {stem : String} {e : Expression}
    (hstem : ∀ ch ∈ stem.toList, Piece.isTokenChar ch = true) (h : compile actions stem = .ok e) :
    ∃ located, actions.mapM UpdateAction.locate = .ok located ∧
      Spells e.bindings e.text (phrase located) ∧ e.Stemmed stem := by
  obtain ⟨grouped, hgrouped, h⟩ := bind_eq_ok.1 h
  cases h
  obtain ⟨located, hlocated, hgroups⟩ := exists_of_locate hgrouped
  have hwritten := Scribe.compile_spells hstem (yields_update grouped)
  rw [phrase_congr hgroups] at hwritten
  exact ⟨located, hlocated, hwritten⟩

end Update

/-! ## Projections -/

namespace Path

theorem Rooted.phrase_ne_nil {p : Path} (h : p.Rooted) : p.phrase ≠ [] := by
  obtain ⟨name, rest, h⟩ := h
  rw [phrase, h]
  simp [phraseElements, Phrase.name]

end Path

theorem Projection.distinct_ne_nil {α : Type} [BEq α] (x : α) (xs : List α) :
    distinct (x :: xs) ≠ [] := by
  simp [distinct, List.eraseDups_cons]

/-! ## What sources compile to -/

namespace Source

variable {stem : String} {e : Expression}

theorem phrase_conditions {cs : List (Condition String)} {c : Condition String}
    (h : Condition.chain cs = some c) :
    (conditions cs).phrase = do return some ((← c.check).phrase false) := by
  cases cs with
  | nil => cases h
  | cons c₁ cs =>
    cases cs with
    | nil =>
      cases h
      rfl
    | cons c₂ cs =>
      rw [Condition.chain_cons_cons] at h
      cases h
      rfl

/-- Conditions mean the tree of their conjunction. -/
theorem Means.of_chain {cs : List (Condition String)} {c : Condition String} {p : Option Phrase}
    (h : (conditions cs).Means p) (hc : Condition.chain cs = some c) :
    ∃ c', c.Filled ∧ c.ParsedAs c' ∧ p = some (c'.phrase false) := by
  cases h with
  | noConditions => cases hc
  | condition hfilled hparsed =>
    cases hc
    exact ⟨_, hfilled, hparsed, rfl⟩
  | conjunction hfilled hparsed =>
    rw [Condition.chain_cons_cons] at hc
    cases hc
    exact ⟨_, hfilled, hparsed, rfl⟩

theorem made_of_conditions {cs : List (Condition String)} {c : Condition String}
    (hstem : ∀ ch ∈ stem.toList, Piece.isTokenChar ch = true)
    (hc : Condition.chain cs = some c) (h : c.compile stem = .ok e) :
    (conditions cs).Made stem e := by
  obtain ⟨c', hc', hspells, hstemmed⟩ := Condition.compile_spells hstem h
  obtain ⟨hfilled, hparsed⟩ := Condition.filled_of_check c hc'
  have hfilled' : c'.Filled := (Condition.same_shape c hparsed).2.1.1 hfilled
  refine ⟨some (c'.phrase false), ?_, ?_, hspells, hstemmed⟩
  · rw [phrase_conditions hc, hc']
    rfl
  · rw [Ne, Option.some.injEq]
    exact Condition.phrase_ne_nil hfilled'

theorem made_of_update {actions : List (UpdateAction String)}
    (hstem : ∀ ch ∈ stem.toList, Piece.isTokenChar ch = true)
    (h : Update.compile actions stem = .ok e) : (update actions).Made stem e := by
  obtain ⟨located, hlocated, hspells, hstemmed⟩ := Update.compile_spells hstem h
  cases actions with
  | nil =>
    cases hlocated
    exact ⟨none, rfl, by simp, hspells, hstemmed⟩
  | cons a actions =>
    refine ⟨some (Update.phrase located), ?_, ?_, hspells, hstemmed⟩
    · rw [phrase, hlocated]
      rfl
    · obtain ⟨a', ha', -⟩ := exists_of_mem_left (mapM_eq_ok.1 hlocated) (List.mem_cons_self ..)
      rw [Ne, Option.some.injEq]
      exact Update.phrase_ne_nil ha'

theorem made_of_projection {paths : List String}
    (hstem : ∀ ch ∈ stem.toList, Piece.isTokenChar ch = true)
    (h : Projection.compile paths stem = .ok e) : (projection paths).Made stem e := by
  obtain ⟨read, hread, h⟩ := bind_eq_ok.1 h
  cases h
  obtain ⟨hspells, hstemmed⟩ := Scribe.compile_spells hstem (Projection.yields_projection read)
  cases paths with
  | nil =>
    cases hread
    exact ⟨none, rfl, by simp, hspells, hstemmed⟩
  | cons text paths =>
    refine ⟨some (Projection.phrase read), ?_, ?_, hspells, hstemmed⟩
    · rw [phrase, hread]
      rfl
    · obtain ⟨text', htext'⟩ := List.exists_mem_of_ne_nil _ (Projection.distinct_ne_nil text paths)
      obtain ⟨p, hp, hparse⟩ := exists_of_mem_left (mapM_eq_ok.1 hread) htext'
      rw [Ne, Option.some.injEq]
      exact Phrase.joined_ne_nil (List.mem_map_of_mem hp) (Path.parse_rooted hparse).phrase_ne_nil

/-- No value stands in the phrase of a projection. -/
theorem nominal_projection {paths : List String} {p : Phrase}
    (h : (projection paths).phrase = .ok (some p)) : p.Nominal := by
  cases paths with
  | nil => cases h
  | cons text paths =>
    obtain ⟨read, -, h⟩ := bind_eq_ok.1 h
    cases h
    exact Projection.nominal_phrase read

end Source

end ItemStore
