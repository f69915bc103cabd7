import ItemStore.Expression.Update
import ItemStore.Proofs.Expression.Grammar

/-!
# How a provider reads updates

The grammar of updates over lexemes.  An update is made of clauses, each of them a keyword and
edits with commas between them.  An edit names a path; under `SET` it says what is assigned to it,
which is a term or a sum or difference of two; a term is a path, or a function applied to terms.

* `ReadsClauses.unique`: there is at most one way to read an update.  What is left behind an edit
  must not go on with it (`AmountEnds`), and only a comma goes on with a clause.
* `ReadsClauses.transfer`: what the placeholders are does not matter to the grammar.
-/

namespace ItemStore

/-! ## What is read -/

/-- A part of what is assigned; a value alone is a path of one step. -/
inductive Term (α : Type) where
  /-- What a path leads to. -/
  | path (steps : List (Step α))
  /-- What a path leads to, or something else if there is nothing. -/
  | ifAbsent (steps : List (Step α)) (other : Term α)
  /-- One list behind another. -/
  | concat (first second : Term α)
deriving DecidableEq, Repr

/-- What is assigned. -/
inductive Amount (α : Type) where
  | term (t : Term α)
  | sum (t u : Term α)
  | difference (t u : Term α)
deriving DecidableEq, Repr

/-- What one action of an update says, as it is read. -/
inductive Edit (α : Type) where
  /-- Something is put where a path leads. -/
  | assign (steps : List (Step α)) (amount : Amount α)
  /-- A value is added to what is there. -/
  | add (steps : List (Step α)) (value : α)
  /-- What is there is removed. -/
  | remove (steps : List (Step α))
  /-- The elements of a value are removed from what is there. -/
  | delete (steps : List (Step α)) (value : α)
deriving DecidableEq, Repr

section Map

variable {α β : Type}

/-- The same term with other names. -/
def Term.map (f : α → β) : Term α → Term β
  | .path steps => .path (steps.map (Step.map f))
  | .ifAbsent steps other => .ifAbsent (steps.map (Step.map f)) (other.map f)
  | .concat first second => .concat (first.map f) (second.map f)

/-- The same amount with other names. -/
def Amount.map (f : α → β) : Amount α → Amount β
  | .term t => .term (t.map f)
  | .sum t u => .sum (t.map f) (u.map f)
  | .difference t u => .difference (t.map f) (u.map f)

/-- The same edit with other names. -/
def Edit.map (f : α → β) : Edit α → Edit β
  | .assign steps amount => .assign (steps.map (Step.map f)) (amount.map f)
  | .add steps value => .add (steps.map (Step.map f)) (f value)
  | .remove steps => .remove (steps.map (Step.map f))
  | .delete steps value => .delete (steps.map (Step.map f)) (f value)

/-- The same clauses with other contents. -/
def mapClauses (f : α → β) (clauses : List (UpdateClause × List α)) :
    List (UpdateClause × List β) :=
  clauses.map fun clause => (clause.1, clause.2.map f)

end Map

/-! ## The grammar -/

section Grammar

variable {α : Type}

/-- A term. -/
inductive ReadsTerm : List (Lexeme α) → Term α → List (Lexeme α) → Prop
  | path {l rest : List (Lexeme α)} {es : List (Step α)} (h : ReadsPath l es rest) :
      ReadsTerm l (.path es) rest
  | ifAbsent {l l' l'' rest : List (Lexeme α)} {es : List (Step α)} {t : Term α}
      (hl : l = .text "if_not_exists" :: .text "(" :: l')
      (hes : ReadsPath l' es (.text "," :: l'')) (ht : ReadsTerm l'' t (.text ")" :: rest)) :
      ReadsTerm l (.ifAbsent es t) rest
  | concat {l l' l'' rest : List (Lexeme α)} {t u : Term α}
      (hl : l = .text "list_append" :: .text "(" :: l')
      (ht : ReadsTerm l' t (.text "," :: l'')) (hu : ReadsTerm l'' u (.text ")" :: rest)) :
      ReadsTerm l (.concat t u) rest

/-- An amount. -/
inductive ReadsAmount : List (Lexeme α) → Amount α → List (Lexeme α) → Prop
  | term {l rest : List (Lexeme α)} {t : Term α} (h : ReadsTerm l t rest) :
      ReadsAmount l (.term t) rest
  | sum {l l' rest : List (Lexeme α)} {t u : Term α} (ht : ReadsTerm l t (.text "+" :: l'))
      (hu : ReadsTerm l' u rest) : ReadsAmount l (.sum t u) rest
  | difference {l l' rest : List (Lexeme α)} {t u : Term α}
      (ht : ReadsTerm l t (.text "-" :: l')) (hu : ReadsTerm l' u rest) :
      ReadsAmount l (.difference t u) rest

/-- An edit under a keyword. -/
inductive ReadsEdit : UpdateClause → List (Lexeme α) → Edit α → List (Lexeme α) → Prop
  | assign {l l' rest : List (Lexeme α)} {es : List (Step α)} {amount : Amount α}
      (hes : ReadsPath l es (.text "=" :: l')) (h : ReadsAmount l' amount rest) :
      ReadsEdit .set l (.assign es amount) rest
  | add {l rest : List (Lexeme α)} {es : List (Step α)} {value : α}
      (hes : ReadsPath l es (.placeholder value :: rest)) : ReadsEdit .add l (.add es value) rest
  | remove {l rest : List (Lexeme α)} {es : List (Step α)} (hes : ReadsPath l es rest) :
      ReadsEdit .remove l (.remove es) rest
  | delete {l rest : List (Lexeme α)} {es : List (Step α)} {value : α}
      (hes : ReadsPath l es (.placeholder value :: rest)) :
      ReadsEdit .delete l (.delete es value) rest

/-- Edits with commas between them. -/
inductive ReadsEdits (k : UpdateClause) :
    List (Lexeme α) → List (Edit α) → List (Lexeme α) → Prop
  | last {l rest : List (Lexeme α)} {edit : Edit α} (h : ReadsEdit k l edit rest) :
      ReadsEdits k l [edit] rest
  | more {l l' rest : List (Lexeme α)} {edit : Edit α} {edits : List (Edit α)}
      (h : ReadsEdit k l edit (.text "," :: l')) (hrest : ReadsEdits k l' edits rest) :
      ReadsEdits k l (edit :: edits) rest

/-- Clauses, up to the end. -/
inductive ReadsClauses : List (Lexeme α) → List (UpdateClause × List (Edit α)) → Prop
  | done : ReadsClauses [] []
  | clause {l l' rest : List (Lexeme α)} {k : UpdateClause} {edits : List (Edit α)}
      {more : List (UpdateClause × List (Edit α))} (hl : l = .text k.keyword :: l')
      (h : ReadsEdits k l' edits rest) (hrest : ReadsClauses rest more) :
      ReadsClauses l ((k, edits) :: more)

end Grammar

/-! ## One way to read -/

section Unique

variable {α : Type} {l rest rest' : List (Lexeme α)}

/-- A path does not begin with a word. -/
theorem ReadsPath.ne_text {es : List (Step α)} (h : ReadsPath l es rest) (s : String)
    (l' : List (Lexeme α)) : l ≠ .text s :: l' := by
  rintro rfl
  obtain ⟨hl, -⟩ := h
  cases hl

/-- What is read as a term is read as one term: a function has its name in front. -/
theorem ReadsTerm.unique {t t' : Term α} (h : ReadsTerm l t rest) (h' : ReadsTerm l t' rest')
    (hrest : PathEnds rest) (hrest' : PathEnds rest') : t = t' ∧ rest = rest' := by
  induction h generalizing t' rest' with
  | path h =>
    cases h' with
    | path h' =>
      obtain ⟨rfl, rfl⟩ := h.unique h' hrest hrest'
      exact ⟨rfl, rfl⟩
    | ifAbsent hl' _ _ => exact absurd hl' (h.ne_text _ _)
    | concat hl' _ _ => exact absurd hl' (h.ne_text _ _)
  | ifAbsent hl hes ht ih =>
    cases h' with
    | path h' => exact absurd hl (h'.ne_text _ _)
    | ifAbsent hl' hes' ht' =>
      rw [hl] at hl'
      cases hl'
      obtain ⟨rfl, heq⟩ :=
        hes.unique hes' (pathEnds_text (by decide) _) (pathEnds_text (by decide) _)
      cases heq
      obtain ⟨rfl, heq⟩ := ih ht' (pathEnds_text (by decide) _) (pathEnds_text (by decide) _)
      cases heq
      exact ⟨rfl, rfl⟩
    | concat hl' _ _ => simp [hl] at hl'
  | concat hl ht hu iht ihu =>
    cases h' with
    | path h' => exact absurd hl (h'.ne_text _ _)
    | ifAbsent hl' _ _ => simp [hl] at hl'
    | concat hl' ht' hu' =>
      rw [hl] at hl'
      cases hl'
      obtain ⟨rfl, heq⟩ := iht ht' (pathEnds_text (by decide) _) (pathEnds_text (by decide) _)
      cases heq
      obtain ⟨rfl, heq⟩ := ihu hu' (pathEnds_text (by decide) _) (pathEnds_text (by decide) _)
      cases heq
      exact ⟨rfl, rfl⟩

/-- Whether lexemes do not go on with an amount in front of them. -/
def AmountEnds (rest : List (Lexeme α)) : Prop :=
  PathEnds rest ∧ rest.head? ≠ some (.text "+") ∧ rest.head? ≠ some (.text "-")

theorem amountEnds_text {s : String} (h : (s ≠ "." ∧ s ≠ "[") ∧ s ≠ "+" ∧ s ≠ "-")
    (l : List (Lexeme α)) : AmountEnds (.text s :: l) := by
  simpa [AmountEnds, PathEnds] using h

theorem amountEnds_nil : AmountEnds ([] : List (Lexeme α)) := by
  simp [AmountEnds, PathEnds]

/-- What follows a term tells whether there is a second one, and with which sign. -/
theorem ReadsAmount.unique {a a' : Amount α} (h : ReadsAmount l a rest)
    (h' : ReadsAmount l a' rest') (hrest : AmountEnds rest) (hrest' : AmountEnds rest') :
    a = a' ∧ rest = rest' := by
  -- the first term is read in one way, and the sign behind it says what there is
  cases h with
  | term h =>
    cases h' with
    | term h' =>
      obtain ⟨rfl, rfl⟩ := h.unique h' hrest.1 hrest'.1
      exact ⟨rfl, rfl⟩
    | sum ht' _ =>
      obtain ⟨-, rfl⟩ := h.unique ht' hrest.1 (pathEnds_text (by decide) _)
      exact absurd rfl hrest.2.1
    | difference ht' _ =>
      obtain ⟨-, rfl⟩ := h.unique ht' hrest.1 (pathEnds_text (by decide) _)
      exact absurd rfl hrest.2.2
  | sum ht hu =>
    cases h' with
    | term h' =>
      obtain ⟨-, rfl⟩ := ht.unique h' (pathEnds_text (by decide) _) hrest'.1
      exact absurd rfl hrest'.2.1
    | sum ht' hu' =>
      obtain ⟨rfl, heq⟩ :=
        ht.unique ht' (pathEnds_text (by decide) _) (pathEnds_text (by decide) _)
      cases heq
      obtain ⟨rfl, rfl⟩ := hu.unique hu' hrest.1 hrest'.1
      exact ⟨rfl, rfl⟩
    | difference ht' _ =>
      have heq := (ht.unique ht' (pathEnds_text (by decide) _) (pathEnds_text (by decide) _)).2
      simp at heq
  | difference ht hu =>
    cases h' with
    | term h' =>
      obtain ⟨-, rfl⟩ := ht.unique h' (pathEnds_text (by decide) _) hrest'.1
      exact absurd rfl hrest'.2.2
    | sum ht' _ =>
      have heq := (ht.unique ht' (pathEnds_text (by decide) _) (pathEnds_text (by decide) _)).2
      simp at heq
    | difference ht' hu' =>
      obtain ⟨rfl, heq⟩ :=
        ht.unique ht' (pathEnds_text (by decide) _) (pathEnds_text (by decide) _)
      cases heq
      obtain ⟨rfl, rfl⟩ := hu.unique hu' hrest.1 hrest'.1
      exact ⟨rfl, rfl⟩

theorem pathEnds_placeholder (a : α) (l : List (Lexeme α)) : PathEnds (.placeholder a :: l) := by
  simp [PathEnds]

/-- The clause tells what an edit looks like. -/
theorem ReadsEdit.unique {k : UpdateClause} {e e' : Edit α} (h : ReadsEdit k l e rest)
    (h' : ReadsEdit k l e' rest') (hrest : AmountEnds rest) (hrest' : AmountEnds rest') :
    e = e' ∧ rest = rest' := by
  cases h with
  | assign hes h =>
    cases h' with
    | assign hes' h' =>
      obtain ⟨rfl, heq⟩ :=
        hes.unique hes' (pathEnds_text (by decide) _) (pathEnds_text (by decide) _)
      cases heq
      obtain ⟨rfl, rfl⟩ := h.unique h' hrest hrest'
      exact ⟨rfl, rfl⟩
  | add hes =>
    cases h' with
    | add hes' =>
      obtain ⟨rfl, heq⟩ :=
        hes.unique hes' (pathEnds_placeholder _ _) (pathEnds_placeholder _ _)
      cases heq
      exact ⟨rfl, rfl⟩
  | remove hes =>
    cases h' with
    | remove hes' =>
      obtain ⟨rfl, rfl⟩ := hes.unique hes' hrest.1 hrest'.1
      exact ⟨rfl, rfl⟩
  | delete hes =>
    cases h' with
    | delete hes' =>
      obtain ⟨rfl, heq⟩ :=
        hes.unique hes' (pathEnds_placeholder _ _) (pathEnds_placeholder _ _)
      cases heq
      exact ⟨rfl, rfl⟩

/-- Whether lexemes do not go on with a clause in front of them. -/
def ClauseEnds (rest : List (Lexeme α)) : Prop :=
  AmountEnds rest ∧ rest.head? ≠ some (.text ",")

/-- Edits go on as long as a comma follows, so they end in one place only. -/
theorem ReadsEdits.unique {k : UpdateClause} {es es' : List (Edit α)} (h : ReadsEdits k l es rest)
    (h' : ReadsEdits k l es' rest') (hrest : ClauseEnds rest) (hrest' : ClauseEnds rest') :
    es = es' ∧ rest = rest' := by
  induction h generalizing es' with
  | last h =>
    cases h' with
    | last h' =>
      obtain ⟨rfl, rfl⟩ := h.unique h' hrest.1 hrest'.1
      exact ⟨rfl, rfl⟩
    | more h' _ =>
      obtain ⟨-, rfl⟩ := h.unique h' hrest.1 (amountEnds_text (by decide) _)
      exact absurd rfl hrest.2
  | more h _ ih =>
    cases h' with
    | last h' =>
      obtain ⟨-, rfl⟩ := h.unique h' (amountEnds_text (by decide) _) hrest'.1
      exact absurd rfl hrest'.2
    | more h' hmore' =>
      obtain ⟨rfl, heq⟩ :=
        h.unique h' (amountEnds_text (by decide) _) (amountEnds_text (by decide) _)
      cases heq
      obtain ⟨rfl, rfl⟩ := ih hmore' hrest
      exact ⟨rfl, rfl⟩

/-- No two clauses have one keyword. -/
theorem UpdateClause.keyword_injective {k k' : UpdateClause} (h : k.keyword = k'.keyword) :
    k = k' := by
  cases k <;> cases k' <;> first | rfl | simp [keyword] at h

/-- Clauses begin with a keyword, which goes on with nothing. -/
theorem ReadsClauses.clauseEnds {clauses : List (UpdateClause × List (Edit α))}
    (h : ReadsClauses l clauses) : ClauseEnds l := by
  cases h with
  | done => exact ⟨amountEnds_nil, by simp⟩
  | @clause _ _ _ k _ _ hl _ _ =>
    rw [hl]
    exact ⟨amountEnds_text (by cases k <;> decide) _, by cases k <;> simp [UpdateClause.keyword]⟩

/-- There is at most one way to read an update. -/
theorem ReadsClauses.unique {clauses clauses' : List (UpdateClause × List (Edit α))}
    (h : ReadsClauses l clauses) (h' : ReadsClauses l clauses') : clauses = clauses' := by
  induction h generalizing clauses' with
  | done =>
    cases h' with
    | done => rfl
    | clause hl' _ _ => cases hl'
  | clause hl hedits hmore ih =>
    cases h' with
    | done => cases hl
    | clause hl' hedits' hmore' =>
      simp only [hl, List.cons.injEq, Lexeme.text.injEq] at hl'
      obtain ⟨hk, rfl⟩ := hl'
      obtain rfl := UpdateClause.keyword_injective hk
      obtain ⟨rfl, rfl⟩ := hedits.unique hedits' hmore.clauseEnds hmore'.clauseEnds
      rw [ih hmore']

end Unique

/-! ## Reading and renaming -/

section Transfer

variable {α β γ : Type} {f : β → γ} {g : α → γ} {l rest : List (Lexeme α)} {m : List (Lexeme β)}

theorem ReadsTerm.transfer {t : Term α} (h : ReadsTerm l t rest) (hm : Alike f g m l) :
    ∃ t' rest', ReadsTerm m t' rest' ∧ t'.map f = t.map g ∧ Alike f g rest' rest := by
  induction h generalizing m with
  | path h =>
    obtain ⟨es', k₁, hes, heq, hrest₁⟩ := h.transfer hm
    exact ⟨.path es', k₁, .path hes, by rw [Term.map, Term.map, heq], hrest₁⟩
  | ifAbsent hl hes _ ih =>
    rw [hl] at hm
    obtain ⟨m₁, rfl, hm₁⟩ := hm.text
    obtain ⟨m₂, rfl, hm₂⟩ := hm₁.text
    obtain ⟨es', m₃, hes', heq, hm₃⟩ := hes.transfer hm₂
    obtain ⟨m₄, rfl, hm₄⟩ := hm₃.text
    obtain ⟨t', k₅, ht', heqt, hrest₅⟩ := ih hm₄
    obtain ⟨k₆, rfl, hrest₆⟩ := hrest₅.text
    exact ⟨_, k₆, .ifAbsent rfl hes' ht', by rw [Term.map, Term.map, heq, heqt], hrest₆⟩
  | concat hl _ _ iht ihu =>
    rw [hl] at hm
    obtain ⟨m₁, rfl, hm₁⟩ := hm.text
    obtain ⟨m₂, rfl, hm₂⟩ := hm₁.text
    obtain ⟨t', m₃, ht', heqt, hm₃⟩ := iht hm₂
    obtain ⟨m₄, rfl, hm₄⟩ := hm₃.text
    obtain ⟨u', k₅, hu', hequ, hrest₅⟩ := ihu hm₄
    obtain ⟨k₆, rfl, hrest₆⟩ := hrest₅.text
    exact ⟨_, k₆, .concat rfl ht' hu', by rw [Term.map, Term.map, heqt, hequ], hrest₆⟩

theorem ReadsAmount.transfer {a : Amount α} (h : ReadsAmount l a rest) (hm : Alike f g m l) :
    ∃ a' rest', ReadsAmount m a' rest' ∧ a'.map f = a.map g ∧ Alike f g rest' rest := by
  cases h with
  | term h =>
    obtain ⟨t', k₁, ht', heqt, hrest₁⟩ := h.transfer hm
    exact ⟨_, k₁, .term ht', by rw [Amount.map, Amount.map, heqt], hrest₁⟩
  | sum ht hu =>
    obtain ⟨t', m₁, ht', heqt, hm₁⟩ := ht.transfer hm
    obtain ⟨m₂, rfl, hm₂⟩ := hm₁.text
    obtain ⟨u', k₃, hu', hequ, hrest₃⟩ := hu.transfer hm₂
    exact ⟨_, k₃, .sum ht' hu', by rw [Amount.map, Amount.map, heqt, hequ], hrest₃⟩
  | difference ht hu =>
    obtain ⟨t', m₁, ht', heqt, hm₁⟩ := ht.transfer hm
    obtain ⟨m₂, rfl, hm₂⟩ := hm₁.text
    obtain ⟨u', k₃, hu', hequ, hrest₃⟩ := hu.transfer hm₂
    exact ⟨_, k₃, .difference ht' hu', by rw [Amount.map, Amount.map, heqt, hequ], hrest₃⟩

theorem ReadsEdit.transfer {k : UpdateClause} {e : Edit α} (h : ReadsEdit k l e rest)
    (hm : Alike f g m l) :
    ∃ e' rest', ReadsEdit k m e' rest' ∧ e'.map f = e.map g ∧ Alike f g rest' rest := by
  cases h with
  | assign hes h =>
    obtain ⟨es', m₁, hes', heq, hm₁⟩ := hes.transfer hm
    obtain ⟨m₂, rfl, hm₂⟩ := hm₁.text
    obtain ⟨a', k₃, ha', heqa, hrest₃⟩ := h.transfer hm₂
    exact ⟨_, k₃, .assign hes' ha', by rw [Edit.map, Edit.map, heq, heqa], hrest₃⟩
  | add hes =>
    obtain ⟨es', m₁, hes', heq, hm₁⟩ := hes.transfer hm
    obtain ⟨v, k₂, rfl, hv, hrest₂⟩ := hm₁.placeholder
    exact ⟨_, k₂, .add hes', by rw [Edit.map, Edit.map, heq, hv], hrest₂⟩
  | remove hes =>
    obtain ⟨es', k₁, hes', heq, hrest₁⟩ := hes.transfer hm
    exact ⟨_, k₁, .remove hes', by rw [Edit.map, Edit.map, heq], hrest₁⟩
  | delete hes =>
    obtain ⟨es', m₁, hes', heq, hm₁⟩ := hes.transfer hm
    obtain ⟨v, k₂, rfl, hv, hrest₂⟩ := hm₁.placeholder
    exact ⟨_, k₂, .delete hes', by rw [Edit.map, Edit.map, heq, hv], hrest₂⟩

/-- Lexemes that are alike are read as edits that are alike. -/
theorem ReadsEdits.transfer {k : UpdateClause} {es : List (Edit α)} (h : ReadsEdits k l es rest)
    (hm : Alike f g m l) : ∃ es' rest', ReadsEdits k m es' rest' ∧
      es'.map (Edit.map f) = es.map (Edit.map g) ∧ Alike f g rest' rest := by
  induction h generalizing m with
  | last h =>
    obtain ⟨e', k₁, he', heq, hrest₁⟩ := h.transfer hm
    exact ⟨[e'], k₁, .last he', by rw [List.map_singleton, List.map_singleton, heq], hrest₁⟩
  | more h _ ih =>
    obtain ⟨e', m₁, he', heq, hm₁⟩ := h.transfer hm
    obtain ⟨m₂, rfl, hm₂⟩ := hm₁.text
    obtain ⟨es', k₃, hes', heq', hrest₃⟩ := ih hm₂
    exact ⟨e' :: es', k₃, .more he' hes', by rw [List.map_cons, List.map_cons, heq, heq'], hrest₃⟩

/-- An update is read in the same way whatever its placeholders are. -/
theorem ReadsClauses.transfer {clauses : List (UpdateClause × List (Edit α))}
    (h : ReadsClauses l clauses) (hm : Alike f g m l) : ∃ clauses', ReadsClauses m clauses' ∧
      mapClauses (Edit.map f) clauses' = mapClauses (Edit.map g) clauses := by
  induction h generalizing m with
  | done =>
    obtain rfl : m = [] := List.map_eq_nil_iff.1 hm
    exact ⟨[], .done, rfl⟩
  | clause hl hedits _ ih =>
    rw [hl] at hm
    obtain ⟨m₁, rfl, hm₁⟩ := hm.text
    obtain ⟨edits', m₂, hedits', heq, hm₂⟩ := hedits.transfer hm₁
    obtain ⟨more', hmore', heq'⟩ := ih hm₂
    refine ⟨_, .clause rfl hedits' hmore', ?_⟩
    rw [mapClauses, List.map_cons, heq, ← mapClauses, heq', mapClauses, mapClauses, List.map_cons]

end Transfer

end ItemStore
