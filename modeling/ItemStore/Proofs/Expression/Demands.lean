import Mathlib.Data.List.DropRight
import ItemStore.Proofs.Expression.Projections

/-!
# Placeholders are issued once

A scribe meets demands one after another: it writes paths and values, refuses texts that are no
paths, and starts over.  The placeholders that it issues are numbered by one supply of words, which
names and values share.

* `Scribe.Keeps` is the invariant: after certain bindings have been written, the supply stands
  behind as many words, and exactly these bindings are kept, each under the placeholder with the
  word of its place (`TokenSource.issue`).
* `Scribe.Issues` says what one writing does to it; every function that writes has such a statement.
* `Accounts.meet`: one demand keeps the account of what was demanded since the last reset;
  `accounts_meetAll`: so do all demands of a run.
* `placeholders_issued_once` has this, and what refusals and resets do, in one statement.
-/

namespace ItemStore

/-! ## Issued placeholders -/

/-- The binding that a step of a path is written for: an index stands for itself. -/
def PathElement.binding? : PathElement → Option Binding
  | .name text => some (.name text)
  | .index _ => none

/-- The bindings that a path is written for. -/
def Path.bindings (p : Path) : List Binding := p.elements.filterMap PathElement.binding?

/-- The sigil of a placeholder for a name or a value. -/
def Binding.sigil : Binding → String
  | .name _ => "#"
  | .value _ => ":"

/-- Bind a placeholder. -/
def Bindings.add (b : Bindings) (t : String) : Binding → Bindings
  | .name text => { b with names := b.names.insert t text }
  | .value v => { b with values := b.values.insert t v }

/-- The placeholders for bindings that are written after `k` others, with what they stand for: each
has the sigil of its sort and the next word. -/
def TokenSource.issue (s : TokenSource) (k : Nat) (wants : List Binding) :
    List (String × Binding) :=
  (wants.zipIdx k).map fun e => (e.1.sigil ++ s.nth (e.2 + 1), e.1)

namespace TokenSource

variable (s : TokenSource) {k : Nat} {wants more : List Binding} {t : String} {x : Binding}

theorem issue_append : s.issue k (wants ++ more) =
    s.issue k wants ++ s.issue (k + wants.length) more := by
  rw [issue, List.zipIdx_append, List.map_append, issue, issue]

theorem issue_singleton : s.issue k [x] = [(x.sigil ++ s.nth (k + 1), x)] := rfl

theorem sigil_append_inj {x y : Binding} {t u : String} (h : x.sigil ++ t = y.sigil ++ u) :
    t = u := by
  cases x with
  | name _ =>
    cases y with
    | name _ => exact prefixed_inj h
    | value _ => exact absurd h (name_ne_value t u)
  | value _ =>
    cases y with
    | name _ => exact absurd h.symm (name_ne_value u t)
    | value _ => exact prefixed_inj h

/-- The placeholders depend on the stem only. -/
theorem issue_congr {s s' : TokenSource} (h : s'.stem = s.stem) :
    s'.issue k wants = s.issue k wants := by
  unfold issue nth
  rw [h]

/-- No placeholder is issued twice. -/
theorem nodup_issue (k : Nat) (wants : List Binding) :
    ((s.issue k wants).map (·.1)).Nodup := by
  have hplaces : (wants.zipIdx k).Pairwise fun a b => a.2 < b.2 := by
    rw [← List.pairwise_map (f := Prod.snd) (R := (· < ·)), List.zipIdx_map_snd]
    exact List.pairwise_lt_range' ..
  unfold List.Nodup issue
  rw [List.map_map, List.pairwise_map]
  apply hplaces.imp
  intro a b hlt heq
  have hplace := s.nth_injective (sigil_append_inj heq)
  omega

/-- An issued placeholder has a word that was handed out. -/
theorem exists_of_mem_issue (h : (t, x) ∈ s.issue k wants) :
    ∃ i, k < i ∧ i ≤ k + wants.length ∧ t = x.sigil ++ s.nth i := by
  unfold issue at h
  obtain ⟨⟨y, i⟩, hmem, heq⟩ := List.mem_map.1 h
  obtain ⟨hlow, hhigh, -⟩ := List.mem_zipIdx hmem
  cases heq
  exact ⟨i + 1, by omega, by omega, rfl⟩

end TokenSource

/-! ## What is bound -/

/-- Bindings are exactly those of a list. -/
structure Bindings.Lists (b : Bindings) (entries : List (String × Binding)) : Prop where
  /-- The names. -/
  names : ∀ t text, b.names.get? t = some text ↔ (t, .name text) ∈ entries
  /-- The values. -/
  values : ∀ t v, b.values.get? t = some v ↔ (t, .value v) ∈ entries

section Lists

variable {entries : List (String × Binding)} {t : String}

/-- A key that is new among entries of a sort is listed when it is inserted. -/
theorem lists_insert {α : Type} {sort : α → Binding} (hsort : ∀ x y, sort x = sort y → x = y)
    {c : Keyed α} (h : ∀ u y, c.get? u = some y ↔ (u, sort y) ∈ entries)
    (ht : t ∉ entries.map (·.1)) (x : α) (u : String) (y : α) :
    (c.insert t x).get? u = some y ↔ (u, sort y) ∈ entries ++ [(t, sort x)] := by
  rw [Keyed.get?_insert, List.mem_append, List.mem_singleton]
  by_cases hu : u = t
  · subst hu
    have hnew : (u, sort y) ∉ entries := fun hmem => ht (List.mem_map_of_mem hmem)
    rw [if_pos rfl]
    constructor
    · intro hxy
      cases hxy
      exact .inr rfl
    · rintro (hmem | hxy)
      · exact absurd hmem hnew
      · rw [hsort y x (Prod.mk.inj hxy).2]
  · simp [hu, h]

theorem Bindings.Lists.add {b : Bindings} (h : b.Lists entries) (ht : t ∉ entries.map (·.1))
    (x : Binding) : (b.add t x).Lists (entries ++ [(t, x)]) := by
  cases x with
  | name text =>
    refine ⟨lists_insert (fun _ _ => Binding.name.inj) h.names ht text, fun u v => ?_⟩
    simp [Bindings.add, h.values]
  | value v =>
    refine ⟨fun u text => ?_, lists_insert (fun _ _ => Binding.value.inj) h.values ht v⟩
    simp [Bindings.add, h.names]

end Lists

namespace Scribe

/-! ## The invariant -/

/-- A scribe has written bindings, in this order, since it was new or started over. -/
structure Keeps (s : Scribe) (written : List Binding) : Prop where
  /-- Words may stand in placeholders. -/
  plain : s.source.Plain
  /-- There is one word for each binding. -/
  issued : s.source.issued = written.length
  /-- Nothing else is bound, and each is bound to the placeholder of its place. -/
  bound : s.bindings.Lists (s.source.issue 0 written)

variable {s : Scribe} {written : List Binding}

theorem keeps_new {stem : String} (h : ∀ c ∈ stem.toList, Piece.isTokenChar c = true) :
    (new stem).Keeps [] where
  plain := h
  issued := rfl
  bound := ⟨fun t text => by simp [new, Bindings.empty, TokenSource.issue],
    fun t v => by simp [new, Bindings.empty, TokenSource.issue]⟩

/-- What is bound has a placeholder with a word that was handed out. -/
theorem Keeps.numbered (h : s.Keeps written) {t : String} {x : Binding}
    (hmem : (t, x) ∈ s.source.issue 0 written) :
    ∃ k, 0 < k ∧ k ≤ s.source.issued ∧ t = x.sigil ++ s.source.nth k := by
  obtain ⟨k, hpos, hle, hk⟩ := s.source.exists_of_mem_issue hmem
  rw [Nat.zero_add, ← h.issued] at hle
  exact ⟨k, hpos, hle, hk⟩

/-- What is kept is what the invariant of writing asks for. -/
theorem Keeps.fresh (h : s.Keeps written) : s.Fresh where
  plain := h.plain
  names t ht := by
    obtain ⟨text, htext⟩ := Keyed.contains_iff.1 ht
    exact h.numbered ((h.bound.names t text).1 htext)
  values t ht := by
    obtain ⟨v, hv⟩ := Keyed.contains_iff.1 ht
    exact h.numbered ((h.bound.values t v).1 hv)

/-- One more binding is written. -/
theorem Keeps.add (h : s.Keeps written) (x : Binding) :
    Keeps ⟨s.source.next.2, s.bindings.add (x.sigil ++ s.source.next.1) x⟩ (written ++ [x]) := by
  have hissue : s.source.issue 0 (written ++ [x]) =
      s.source.issue 0 written ++ [(x.sigil ++ s.source.next.1, x)] := by
    rw [TokenSource.issue_append, Nat.zero_add, TokenSource.issue_singleton, ← h.issued]
    rfl
  have hnew : x.sigil ++ s.source.next.1 ∉ (s.source.issue 0 written).map (·.1) := by
    have hnodup := s.source.nodup_issue 0 (written ++ [x])
    rw [hissue, List.map_append, List.nodup_append] at hnodup
    intro hmem
    exact hnodup.2.2 _ hmem _ (by simp) rfl
  refine ⟨h.plain, ?_, ?_⟩
  · rw [List.length_append, ← h.issued]
    rfl
  · show (s.bindings.add (x.sigil ++ s.source.next.1) x).Lists
      (s.source.issue 0 (written ++ [x]))
    rw [hissue]
    exact h.bound.add hnew x

/-! ## What a writing issues -/

/-- A text was written that holds the placeholders for bindings, in this order. -/
structure Issued (s : Scribe) (written wants : List Binding) (text : String) (s' : Scribe) :
    Prop where
  /-- The bindings are kept. -/
  keeps : s'.Keeps (written ++ wants)
  /-- Words still begin with the same stem. -/
  stem : s'.source.stem = s.source.stem
  /-- The placeholders of the text. -/
  tokens : tokensOf text = (s.source.issue written.length wants).map (·.1)
  /-- Nothing that follows apart changes how the text is read. -/
  ends : Ends text
  /-- It does not prolong a placeholder in front of it. -/
  apart : Apart text.toList

/-- Whether a writing issues placeholders for bindings, in this order. -/
def Issues (w : Writing String) (wants : List Binding) : Prop :=
  ∀ (s : Scribe) (written : List Binding), s.Keeps written →
    s.Issued written wants (w s).1 (w s).2

theorem issues_literal {l : String} (hl : Literal l) (ha : Apart l.toList) :
    Issues (pure l) [] := by
  intro s written hs
  refine ⟨?_, rfl, tokensOf_literal hl, (spells_literal (b := s.bindings) hl).ends, ha⟩
  rwa [List.append_nil]

/-- Texts behind one another issue the placeholders of the one and then of the other. -/
theorem Issues.append {w u : Writing String} {wants more : List Binding} (hw : Issues w wants)
    (hu : Issues u more) : Issues (do return (← w) ++ (← u)) (wants ++ more) := by
  intro s written hs
  have hfirst := hw s written hs
  have hsecond := hu (w s).2 (written ++ wants) hfirst.keeps
  refine ⟨?_, hsecond.stem.trans hfirst.stem, ?_, ?_, ?_⟩
  · have hkeeps := hsecond.keeps
    rwa [List.append_assoc] at hkeeps
  · show tokensOf ((w s).1 ++ (u (w s).2).1) = _
    rw [tokensOf_append hfirst.ends hsecond.apart, hfirst.tokens, hsecond.tokens,
      TokenSource.issue_congr hfirst.stem, List.length_append, TokenSource.issue_append,
      List.map_append]
  · exact hfirst.ends.append hsecond.ends hsecond.apart
  · show Apart ((w s).1 ++ (u (w s).2).1).toList
    rw [String.toList_append]
    exact hfirst.apart.append hsecond.apart

/-- The placeholder for one binding. -/
theorem issues_one {w : Writing String} {x : Binding} {c : Char} (hsigil : x.sigil.toList = [c])
    (hc : Piece.isSigil c = true)
    (hw : ∀ s, w s = (x.sigil ++ s.source.next.1,
      ⟨s.source.next.2, s.bindings.add (x.sigil ++ s.source.next.1) x⟩)) : Issues w [x] := by
  intro s written hs
  have htoken : IsToken (x.sigil ++ s.source.next.1) :=
    TokenSource.isToken_nth hs.plain hsigil hc (Nat.succ_pos _)
  rw [hw]
  refine ⟨hs.add x, rfl, ?_, fun rest hrest => ?_, ?_⟩
  · rw [tokensOf_token htoken, TokenSource.issue_singleton, ← hs.issued]
    rfl
  · rw [signs_token htoken, signs_token_append htoken hrest]
    rfl
  · have hapart := htoken.apart []
    rwa [List.append_nil] at hapart

theorem issues_name (text : String) : Issues (name text) [.name text] := by
  apply issues_one (c := '#')
  · simp [Binding.sigil]
  · decide
  · intro s
    rfl

theorem issues_value (v : AttributeValue) : Issues (value v) [.value v] := by
  apply issues_one (c := ':')
  · simp [Binding.sigil]
  · decide
  · intro s
    rfl

theorem issues_indexText (n : Nat) : Issues (pure (indexText n)) [] :=
  issues_literal (literal_indexText n) (by simp [indexText, Piece.isTokenChar])

theorem issues_pathRest (es : List PathElement) :
    Issues (pathRest es) (es.filterMap PathElement.binding?) := by
  induction es with
  | nil =>
    apply issues_literal
    · decide
    · exact apart_nil
  | cons e es ih =>
    cases e with
    | name text =>
      have hpoint : Issues (pure ".") [] := issues_literal (by decide) (by decide)
      exact (hpoint.append (issues_name text)).append ih
    | index n => exact (issues_indexText n).append ih

/-- A path issues a placeholder for each of its names. -/
theorem issues_path (p : Path) : Issues (path p) p.bindings := by
  obtain ⟨es⟩ := p
  cases es with
  | nil => exact issues_pathRest []
  | cons e es =>
    cases e with
    | name text => exact (issues_name text).append (issues_pathRest es)
    | index n => exact issues_pathRest (.index n :: es)

/-! ## Demands and answers -/

/-- The bindings that are written to meet a demand. -/
def Demand.wants : Demand → List Binding
  | .path text =>
    match Path.parse text with
    | .ok p => p.bindings
    | .error _ => []
  | .value v => [.value v]
  | .reset => []

/-- Whether a demand is to start over. -/
def Demand.isReset : Demand → Bool
  | .reset => true
  | _ => false

/-- The placeholders in an answer. -/
def placeholdersIn : Answer → List String
  | .ok (some text) => tokensOf text
  | _ => []

/-- The bindings that were demanded, in order. -/
def wanted (log : List (Demand × Answer)) : List Binding := log.flatMap fun e => e.1.wants

/-- The placeholders in the answers, in order. -/
def answered (log : List (Demand × Answer)) : List String :=
  log.flatMap fun e => placeholdersIn e.2

theorem wanted_concat (log : List (Demand × Answer)) (d : Demand) (a : Answer) :
    wanted (log ++ [(d, a)]) = wanted log ++ d.wants := by
  rw [wanted, List.flatMap_append, List.flatMap_singleton]
  rfl

theorem answered_concat (log : List (Demand × Answer)) (d : Demand) (a : Answer) :
    answered (log ++ [(d, a)]) = answered log ++ placeholdersIn a := by
  rw [answered, List.flatMap_append, List.flatMap_singleton]
  rfl

/-- What happened since the last reset. -/
def sinceReset (log : List (Demand × Answer)) : List (Demand × Answer) :=
  log.rtakeWhile fun e => !e.1.isReset

/-- Whether an answer meets a demand to write, given what is bound. -/
inductive Answers (b : Bindings) : Demand → Answer → Prop where
  /-- The text of a path is read in one way, as one path, and this is the path that was meant. -/
  | path {text written : String} {p : Path} : Path.parse text = .ok p →
      Expression.Projects ⟨written, b⟩ [p] → Answers b (.path text) (.ok (some written))
  /-- A text that is no path is refused. -/
  | refused {text : String} {e : StoreError} : Path.parse text = .error e →
      Answers b (.path text) (.error e)
  /-- The placeholder of a value stands for the value. -/
  | value {v : AttributeValue} {t : String} : b.find? t = some (.value v) →
      Answers b (.value v) (.ok (some t))

theorem Answers.mono {b b' : Bindings} (hb : b.Within b') {d : Demand} {a : Answer}
    (h : Answers b d a) : Answers b' d a := by
  cases h with
  | path hparse hprojects => exact .path hparse (hprojects.mono hb)
  | refused hparse => exact .refused hparse
  | value hfind => exact .value (hb _ _ hfind)

/-- The account of what happened to a scribe since its last reset. -/
structure Accounts (stem : String) (log : List (Demand × Answer)) (s : Scribe) : Prop where
  /-- Words begin with the stem. -/
  stem : s.source.stem = stem
  /-- The placeholders in the answers are those for what was demanded, with the first words. -/
  issued : answered log = (s.source.issue 0 (wanted log)).map (·.1)
  /-- What was demanded is kept, and nothing else. -/
  keeps : s.Keeps (wanted log)
  /-- Every demand has been met, and still is. -/
  answers : ∀ e ∈ log, Answers s.bindings e.1 e.2

/-! ## One demand -/

section Step

variable {stem : String} {log : List (Demand × Answer)} {s s' : Scribe} {d : Demand}

theorem meet_value (s : Scribe) (v : AttributeValue) :
    s.meet (.value v) = (.ok (some (value v s).1), (value v s).2) := rfl

theorem meet_path {text : String} {p : Path} (h : Path.parse text = .ok p) :
    s.meet (.path text) = (.ok (some (path p s).1), (path p s).2) := by
  rw [meet, h]
  rfl

theorem meet_refused {text : String} {e : StoreError} (h : Path.parse text = .error e) :
    s.meet (.path text) = (.error e, s) := by
  rw [meet, h]

theorem accounts_new (h : ∀ c ∈ stem.toList, Piece.isTokenChar c = true) :
    Accounts stem [] (new stem) where
  stem := rfl
  issued := rfl
  keeps := keeps_new h
  answers e he := by cases he

/-- A text that was written enters the account. -/
theorem Accounts.concat (h : Accounts stem log s) {text : String}
    (hissued : s.Issued (wanted log) d.wants text s') (hwithin : s.bindings.Within s'.bindings)
    (hanswers : Answers s'.bindings d (.ok (some text))) :
    Accounts stem (log ++ [(d, .ok (some text))]) s' := by
  refine ⟨hissued.stem.trans h.stem, ?_, ?_, ?_⟩
  · rw [wanted_concat, answered_concat, h.issued, TokenSource.issue_congr hissued.stem,
      TokenSource.issue_append, List.map_append, Nat.zero_add, ← hissued.tokens]
    rfl
  · rw [wanted_concat]
    exact hissued.keeps
  · intro e he
    rcases List.mem_append.1 he with he | he
    · exact (h.answers e he).mono hwithin
    · cases List.mem_singleton.1 he
      exact hanswers

/-- A refusal enters the account, and nothing else changes. -/
theorem Accounts.refuse (h : Accounts stem log s) {text : String} {e : StoreError}
    (hparse : Path.parse text = .error e) :
    Accounts stem (log ++ [(.path text, .error e)]) s := by
  have hwants : (Demand.path text).wants = [] := by simp [Demand.wants, hparse]
  have hsame (a : Answer) : wanted (log ++ [(.path text, a)]) = wanted log := by
    rw [wanted_concat, hwants, List.append_nil]
  refine ⟨h.stem, ?_, ?_, ?_⟩
  · rw [hsame, answered_concat, ← h.issued]
    exact List.append_nil _
  · rw [hsame]
    exact h.keeps
  · intro x hx
    rcases List.mem_append.1 hx with hx | hx
    · exact h.answers x hx
    · cases List.mem_singleton.1 hx
      exact .refused hparse

/-- A demand to write, whether it can be met or not, enters the account. -/
theorem Accounts.meet (h : Accounts stem log s) (hd : d.isReset = false) :
    Accounts stem (log ++ [(d, (s.meet d).1)]) (s.meet d).2 := by
  have hfresh := h.keeps.fresh
  cases d with
  | reset => cases hd
  | value v =>
    have hnone := hfresh.find?_eq_none (.inr rfl)
    rw [meet_value]
    apply h.concat (d := .value v) (issues_value v s _ h.keeps)
    · exact (yields_value v s hfresh).1.within
    · exact .value ((Bindings.find?_insert_value v hnone).trans (if_pos rfl))
  | path text =>
    cases hparse : Path.parse text with
    | error e =>
      rw [meet_refused hparse]
      exact h.refuse hparse
    | ok p =>
      have hwants : (Demand.path text).wants = p.bindings := by simp [Demand.wants, hparse]
      obtain ⟨hgrows, hspells⟩ := yields_path p s hfresh
      have hissued := issues_path p s _ h.keeps
      rw [← hwants] at hissued
      rw [meet_path hparse]
      apply h.concat hissued hgrows.within
      apply Answers.path hparse
      apply Expression.projects_of_says
      · show Says _ ((Projection.phrase [p]).map (Sign.map some))
        rw [Projection.phrase, List.map_singleton, Phrase.joined_singleton]
        exact hspells.spells.says
      · intro q hq
        rw [List.mem_singleton.1 hq]
        exact Path.parse_rooted hparse

/-- After a reset a scribe is new. -/
theorem Accounts.reset (h : Accounts stem log s) : s.reset = new stem := by
  unfold Scribe.reset TokenSource.reset new TokenSource.new
  rw [h.stem]

end Step

/-! ## Runs -/

theorem meetAll_cons (s : Scribe) (d : Demand) (rest : List Demand) :
    s.meetAll (d :: rest) = ((s.meet d).1 :: ((s.meet d).2.meetAll rest).1,
      ((s.meet d).2.meetAll rest).2) := rfl

theorem meetAll_append (s : Scribe) (demands more : List Demand) :
    s.meetAll (demands ++ more) =
      ((s.meetAll demands).1 ++ ((s.meetAll demands).2.meetAll more).1,
        ((s.meetAll demands).2.meetAll more).2) := by
  induction demands generalizing s with
  | nil => rfl
  | cons d demands ih =>
    rw [List.cons_append, meetAll_cons, meetAll_cons, ih, List.cons_append]

theorem length_meetAll (s : Scribe) (demands : List Demand) :
    (s.meetAll demands).1.length = demands.length := by
  induction demands generalizing s with
  | nil => rfl
  | cons d demands ih => exact congrArg (· + 1) (ih (s.meet d).2)

/-- All demands of a run keep the account.  The induction is on the run, from the end. -/
theorem accounts_meetAll {stem : String} (h : ∀ c ∈ stem.toList, Piece.isTokenChar c = true)
    (demands : List Demand) :
    Accounts stem (sinceReset (demands.zip ((new stem).meetAll demands).1))
      ((new stem).meetAll demands).2 := by
  induction demands using List.reverseRecOn with
  | nil => exact accounts_new h
  | append_singleton demands d ih =>
    have hrun := meetAll_append (new stem) demands [d]
    rw [hrun, List.zip_append (length_meetAll _ _).symm]
    show Accounts stem (sinceReset (_ ++ [(d, (Scribe.meet _ d).1)])) (Scribe.meet _ d).2
    unfold sinceReset
    rw [List.rtakeWhile_concat]
    cases hd : d.isReset with
    | false => exact ih.meet hd
    | true =>
      cases d with
      | reset =>
        have hnew : (Scribe.meet ((new stem).meetAll demands).2 .reset).2 = new stem := ih.reset
        rw [hnew]
        exact accounts_new h
      | path text => cases hd
      | value v => cases hd

/-- **A scribe issues every placeholder once, and only for what it keeps.**

Let a scribe whose stem is of letters, digits and underscores meet any demands.  The placeholders in
its answers since the last reset are distinct, and they have the first words of its supply, in
order; so many words have been taken.  Exactly these placeholders are bound, each to the name or
value that it was issued for, and every written path is read, in one way only, as the path that was
demanded. A text that is no path is refused and changes nothing.  After a reset demands are met as a
new scribe meets them. -/
theorem placeholders_issued_once {stem : String}
    (h : ∀ c ∈ stem.toList, Piece.isTokenChar c = true) (demands : List Demand) :
    ∃ answers s, (new stem).meetAll demands = (answers, s) ∧
      answers.length = demands.length ∧
      Accounts stem (sinceReset (demands.zip answers)) s ∧
      (answered (sinceReset (demands.zip answers))).Nodup ∧
      (∀ text e, Path.parse text = .error e → s.meet (.path text) = (.error e, s)) ∧
      ∀ more, (new stem).meetAll (demands ++ .reset :: more) =
        (answers ++ .ok none :: ((new stem).meetAll more).1, ((new stem).meetAll more).2) := by
  have haccounts := accounts_meetAll h demands
  refine ⟨_, _, rfl, length_meetAll _ _, haccounts, ?_, ?_, ?_⟩
  · rw [haccounts.issued]
    exact TokenSource.nodup_issue _ _ _
  · intro text e hparse
    exact meet_refused hparse
  · intro more
    have hnew : (Scribe.meet ((new stem).meetAll demands).2 .reset).2 = new stem := haccounts.reset
    rw [meetAll_append, meetAll_cons, hnew]
    rfl

/-- Paths and values in turn, a text that is no path among them, and a new start. -/
def mixedDemands : List Demand :=
  [.path "a.b", .reset, .path "a.b[2].a", .value (.number "1"), .path "a..b", .path "b"]

example : ((new "p_").meetAll mixedDemands).1.map (fun a => a.toOption.join) =
    [some "#p_a.#p_b", none, some "#p_a.#p_b[2].#p_c", some ":p_d", none, some "#p_e"] := by
  decide +kernel

theorem placeholders_issued_once_mixed :
    (∀ c ∈ "p_".toList, Piece.isTokenChar c = true) ∧
      ∃ answers s, (new "p_").meetAll mixedDemands = (answers, s) ∧
        Accounts "p_" (sinceReset (mixedDemands.zip answers)) s ∧
        (answered (sinceReset (mixedDemands.zip answers))).Nodup := by
  have hstem : ∀ c ∈ "p_".toList, Piece.isTokenChar c = true := by decide
  obtain ⟨answers, s, hrun, -, haccounts, hnodup, -⟩ := placeholders_issued_once hstem mixedDemands
  exact ⟨hstem, answers, s, hrun, haccounts, hnodup⟩

end Scribe

end ItemStore
