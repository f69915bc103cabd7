import Mathlib.Tactic.Choose
import ItemStore.Proofs.Expression.ReadBack

/-!
# Projections are read back

The text of a projection is read as paths with commas between them, and every path gives back the
elements that it stands for.

* `ReadsProjection.unique`: there is at most one way to read a projection.
* `Expression.projects_of_says`: a text that says the phrase of paths gives these paths back.
* `Projection.compile_projects_spellings`: what is compiled projects every path, in the order of the
  first places.  It does so once for every way in which the path was written; once only, if no path
  was written in two ways.
* `Projection.projects_twice`: two ways to write an index make two parts of one path.
-/

namespace ItemStore

/-! ## The grammar -/

section Grammar

variable {α : Type}

/-- Paths with commas between them, up to the end. -/
inductive ReadsPaths : List (Lexeme α) → List (List (Step α)) → Prop
  | last {l : List (Lexeme α)} {es : List (Step α)} (h : ReadsPath l es []) : ReadsPaths l [es]
  | more {l l' : List (Lexeme α)} {es : List (Step α)} {parts : List (List (Step α))}
      (h : ReadsPath l es (.text "," :: l')) (hrest : ReadsPaths l' parts) :
      ReadsPaths l (es :: parts)

/-- A projection: nothing at all, or paths. -/
inductive ReadsProjection : List (Lexeme α) → List (List (Step α)) → Prop
  | nothing : ReadsProjection [] []
  | paths {l : List (Lexeme α)} {parts : List (List (Step α))} (h : ReadsPaths l parts) :
      ReadsProjection l parts

theorem ReadsPaths.ne_nil {parts : List (List (Step α))} : ¬ ReadsPaths [] parts := by
  have hpath {es : List (Step α)} {rest : List (Lexeme α)} : ¬ ReadsPath [] es rest := by
    rintro ⟨⟨⟩, -⟩
  rintro (h | ⟨h, -⟩)
  · exact hpath h
  · exact hpath h

theorem ReadsPaths.unique {l : List (Lexeme α)} {parts parts' : List (List (Step α))}
    (h : ReadsPaths l parts) (h' : ReadsPaths l parts') : parts = parts' := by
  have hnil : PathEnds ([] : List (Lexeme α)) := amountEnds_nil.1
  have hcomma (k : List (Lexeme α)) : PathEnds (.text "," :: k) := pathEnds_text (by decide) k
  induction h generalizing parts' with
  | last h =>
    cases h' with
    | last h' => rw [(h.unique h' hnil hnil).1]
    | more h' _ => cases (h.unique h' hnil (hcomma _)).2
  | more h _ ih =>
    cases h' with
    | last h' => cases (h.unique h' (hcomma _) hnil).2
    | more h' hrest' =>
      obtain ⟨rfl, heq⟩ := h.unique h' (hcomma _) (hcomma _)
      cases heq
      rw [ih hrest']

/-- There is at most one way to read a projection. -/
theorem ReadsProjection.unique {l : List (Lexeme α)} {parts parts' : List (List (Step α))}
    (h : ReadsProjection l parts) (h' : ReadsProjection l parts') : parts = parts' := by
  cases h with
  | nothing =>
    cases h' with
    | nothing => rfl
    | paths h' => exact absurd h' ReadsPaths.ne_nil
  | paths h =>
    cases h' with
    | nothing => exact absurd h ReadsPaths.ne_nil
    | paths h' => exact h.unique h'

end Grammar

section Transfer

variable {α β γ : Type} {f : β → γ} {g : α → γ} {l : List (Lexeme α)} {m : List (Lexeme β)}
  {parts : List (List (Step α))}

theorem ReadsPaths.transfer (h : ReadsPaths l parts) (hm : Alike f g m l) :
    ∃ parts', ReadsPaths m parts' ∧
      parts'.map (List.map (Step.map f)) = parts.map (List.map (Step.map g)) := by
  induction h generalizing m with
  | last h =>
    obtain ⟨es', k, hes, heq, hk⟩ := h.transfer hm
    obtain rfl : k = [] := List.map_eq_nil_iff.1 hk
    exact ⟨[es'], .last hes, by rw [List.map_singleton, List.map_singleton, heq]⟩
  | more h _ ih =>
    obtain ⟨es', m₁, hes, heq, hm₁⟩ := h.transfer hm
    obtain ⟨m₂, rfl, hm₂⟩ := hm₁.text
    obtain ⟨parts', hparts, heqs⟩ := ih hm₂
    exact ⟨es' :: parts', .more hes hparts, by rw [List.map_cons, List.map_cons, heq, heqs]⟩

/-- A projection is read in the same way whatever its placeholders are. -/
theorem ReadsProjection.transfer (h : ReadsProjection l parts) (hm : Alike f g m l) :
    ∃ parts', ReadsProjection m parts' ∧
      parts'.map (List.map (Step.map f)) = parts.map (List.map (Step.map g)) := by
  cases h with
  | nothing =>
    obtain rfl : m = [] := List.map_eq_nil_iff.1 hm
    exact ⟨[], .nothing, rfl⟩
  | paths h =>
    obtain ⟨parts', hparts, heq⟩ := h.transfer hm
    exact ⟨parts', .paths hparts, heq⟩

end Transfer

/-! ## Paths recovered from what is read -/

/-- The paths that parts of a projection stand for under bindings. -/
def Bindings.paths? (b : Bindings) (parts : List (List (Step String))) : Option (List Path) :=
  parts.mapM fun steps => Path.ofSteps? (steps.map (Step.map b.find?))

/-- Whether a text is read as a projection in one way, and its parts stand for paths. -/
def Expression.Projects (e : Expression) (ps : List Path) : Prop :=
  ∃ parts, ReadsProjection (Lexeme.ofSigns (signs e.text)) parts ∧
    (∀ parts', ReadsProjection (Lexeme.ofSigns (signs e.text)) parts' → parts' = parts) ∧
    e.bindings.paths? parts = some ps

theorem Expression.Projects.unique {e : Expression} {ps ps' : List Path} (h : e.Projects ps)
    (h' : e.Projects ps') : ps = ps' := by
  obtain ⟨parts, -, honly, hps⟩ := h
  obtain ⟨parts', hreads', -, hps'⟩ := h'
  rw [honly parts' hreads', hps] at hps'
  exact Option.some.inj hps'

section Within

variable {b b' : Bindings}

/-- Steps that lead along a path still do where more is bound. -/
theorem Path.ofSteps?_mono (hb : b.Within b') {steps : List (Step String)} {p : Path}
    (h : Path.ofSteps? (steps.map (Step.map b.find?)) = some p) :
    Path.ofSteps? (steps.map (Step.map b'.find?)) = some p := by
  have hstep (st : Step String) (e : PathElement) (h : (st.map b.find?).element? = some e) :
      (st.map b'.find?).element? = some e := by
    cases st with
    | index n => exact h
    | name t =>
      obtain ⟨text, htext, he⟩ := Option.map_eq_some_iff.1 h
      obtain ⟨x, hx, hname⟩ := Option.bind_eq_some_iff.1 htext
      refine Option.map_eq_some_iff.2 ⟨text, ?_, he⟩
      exact Option.bind_eq_some_iff.2 ⟨x, hb t x hx, hname⟩
  unfold Path.ofSteps? at h ⊢
  rw [List.mapM_map] at h ⊢
  obtain ⟨es, hes, hp⟩ := Option.map_eq_some_iff.1 h
  exact Option.map_eq_some_iff.2 ⟨es, mapM_eq_some.2 ((mapM_eq_some.1 hes).imp hstep), hp⟩

/-- More bindings do no harm. -/
theorem Expression.Projects.mono (hb : b.Within b') {text : String} {ps : List Path}
    (h : Expression.Projects ⟨text, b⟩ ps) : Expression.Projects ⟨text, b'⟩ ps := by
  obtain ⟨parts, hread, honly, hps⟩ := h
  refine ⟨parts, hread, honly, mapM_eq_some.2 ((mapM_eq_some.1 hps).imp ?_)⟩
  intro steps p hp
  exact Path.ofSteps?_mono hb hp

end Within

open Lexeme

/-- The phrase of paths is read path by path. -/
theorem Projection.readsProjection_phrase {ps : List Path} (h : ∀ p ∈ ps, p.Rooted) :
    ReadsProjection (ofSigns (phrase ps)) (ps.map Path.steps) := by
  have hjoined : ∀ ps : List Path, ps ≠ [] → (∀ p ∈ ps, p.Rooted) →
      ReadsPaths (ofSigns (phrase ps)) (ps.map Path.steps) := by
    intro ps hne h
    induction ps with
    | nil => exact absurd rfl hne
    | cons p ps ih =>
      have hp := h p (List.mem_cons_self ..)
      cases ps with
      | nil =>
        have hreads := hp.reads []
        rw [List.append_nil] at hreads
        rw [phrase, List.map_singleton, Phrase.joined_singleton]
        exact .last hreads
      | cons p' ps =>
        have hcomma : ofSigns (Sign.literal ", " : Phrase) = [.text ","] := by rfl
        have hrest := ih (List.cons_ne_nil _ _) fun q hq => h q (List.mem_cons_of_mem _ hq)
        rw [phrase, List.map_cons, List.map_cons, Phrase.joined_cons_cons,
          ofSigns_append p.shut_phrase, ofSigns_append (shut_literal (by decide)), hcomma]
        exact .more (hp.reads _) hrest
  cases ps with
  | nil => exact .nothing
  | cons p ps => exact .paths (hjoined _ (List.cons_ne_nil _ _) h)

/-- Steps that say the same as those of a path, up to the form of values, lead along the path. -/
theorem Path.ofSteps?_of_map_eq {b : Bindings} {f : AttributeValue → AttributeValue}
    {steps : List (Step String)} {p : Path}
    (h : steps.map (Step.map fun t => (b.find? t).map (Binding.mapValue f)) =
      p.steps.map (Step.map fun x => some (x.mapValue f))) :
    Path.ofSteps? (steps.map (Step.map b.find?)) = some p := by
  have hleft : (steps.map (Step.map b.find?)).map (Step.map (Option.map (Binding.mapValue f))) =
      steps.map (Step.map fun t => (b.find? t).map (Binding.mapValue f)) :=
    Step.map_map_all _ _ _
  have hright : (p.steps.map (Step.map some)).map (Step.map (Option.map (Binding.mapValue f))) =
      p.steps.map (Step.map fun x => some (x.mapValue f)) := Step.map_map_all _ _ _
  have hpath := congrArg Path.ofSteps? (hleft.trans (h.trans hright.symm))
  rwa [Path.ofSteps?_mapValue, Path.ofSteps?_mapValue, p.ofSteps?_steps] at hpath

/-- A text that says the phrase of paths gives these paths back. -/
theorem Expression.projects_of_says {e : Expression} {ps : List Path}
    (hsaid : Says (e.bindings.resolve e.text) ((Projection.phrase ps).map (Sign.map some)))
    (h : ∀ p ∈ ps, p.Rooted) : e.Projects ps := by
  obtain ⟨parts, hread, hmap⟩ :=
    (Projection.readsProjection_phrase h).transfer (alike_of_map_eq hsaid.map_canonical)
  rw [List.map_map] at hmap
  obtain ⟨ps', hps', heq⟩ := exists_mapM_of_map_eq (h := id) (k := id)
    (fun _ _ hsteps => ⟨_, Path.ofSteps?_of_map_eq hsteps, rfl⟩) hmap
  rw [List.map_id, List.map_id] at heq
  exact ⟨parts, hread, fun _ hread' => hread'.unique hread, heq ▸ hps'⟩

/-! ## Compiled projections -/

namespace Projection

/-- A compiled projection projects the paths of its texts, and so does the compacted one. -/
theorem projects_of_compile {paths : List String} {stem : String} {e : Expression}
    {parts : List Path} (hstem : ∀ ch ∈ stem.toList, Piece.isTokenChar ch = true)
    (he : compile paths stem = .ok e) (hparts : (distinct paths).mapM Path.parse = .ok parts) :
    e.Projects parts ∧ e.compact.Projects parts := by
  rw [compile, hparts] at he
  cases he
  obtain ⟨hspells, hstemmed⟩ := Scribe.compile_spells hstem (yields_projection parts)
  have hrooted : ∀ p ∈ parts, p.Rooted := by
    intro p hp
    obtain ⟨text, -, htext⟩ := exists_of_mem_left (mapM_eq_ok.1 hparts).flip hp
    exact Path.parse_rooted htext
  have hclosed := Expression.closed_of_spells hspells hstemmed
  exact ⟨Expression.projects_of_says hspells.says hrooted,
    Expression.projects_of_says ((Expression.saysAs_compact hclosed).trans hspells.says) hrooted⟩

/-- Texts that can all be read as paths compile.  The text is then read in one way, and its parts,
with placeholders replaced by what they stand for, are the paths of the texts, in the order of the
first places: every text that is written down again is left out.  No path is lost, and each stands
there once exactly if none was written in two ways. -/
theorem compile_projects_spellings (paths : List String) {stem : String}
    (hstem : ∀ ch ∈ stem.toList, Piece.isTokenChar ch = true)
    (h : ∀ text ∈ paths, ReadablePath text) :
    ∃ e read parts, compile paths stem = .ok e ∧ paths.mapM Path.parse = .ok read ∧
      (distinct paths).mapM Path.parse = .ok parts ∧
      e.Projects parts ∧ e.compact.Projects parts ∧ distinct parts = distinct read ∧
      (parts = distinct read ↔
        ∀ s ∈ paths, ∀ t ∈ paths, Path.parse s = Path.parse t → s = t) := by
  have : Inhabited Path := ⟨⟨[]⟩⟩
  choose! path hpath using h
  have hall (texts : List String) (hsub : texts ⊆ paths) :
      texts.mapM Path.parse = .ok (texts.map path) :=
    mapM_eq_ok.2 (List.forall₂_map_right_iff.2
      (List.forall₂_same.2 fun t ht => hpath t (hsub ht)))
  have hparts := hall (distinct paths) fun t ht => List.mem_eraseDups.1 ht
  obtain ⟨e, he⟩ : ∃ e, compile paths stem = .ok e := ⟨_, by rw [compile, hparts]; rfl⟩
  obtain ⟨hprojects, hcompact⟩ := projects_of_compile hstem he hparts
  refine ⟨e, _, _, he, hall paths (List.Subset.refl paths), hparts, hprojects, hcompact,
    eraseDups_map_eraseDups path paths, (map_eraseDups_eq_iff path paths).trans ?_⟩
  refine forall₂_congr fun s hs => forall₂_congr fun t ht => ?_
  rw [hpath s hs, hpath t ht, Except.ok.injEq]

/-- Paths that share names and repeat, one of them with an escaped point. -/
def sharedPaths : List String := ["a.b[2]", "c", "a\\.b", "c", "a.b[2]", "a"]

example : (compile sharedPaths "p_").toOption.map Expression.text =
    some "#p_a.#p_b[2], #p_c, #p_d, #p_e" := by
  decide +kernel

theorem compile_projects_spellings_shared :
    (∀ ch ∈ "p_".toList, Piece.isTokenChar ch = true) ∧
      (∀ text ∈ sharedPaths, ReadablePath text) ∧
      ∃ e read parts, compile sharedPaths "p_" = .ok e ∧
        sharedPaths.mapM Path.parse = .ok read ∧
        (distinct sharedPaths).mapM Path.parse = .ok parts ∧
        e.Projects parts ∧ e.compact.Projects parts ∧ distinct parts = distinct read ∧
        (parts = distinct read ↔
          ∀ s ∈ sharedPaths, ∀ t ∈ sharedPaths, Path.parse s = Path.parse t → s = t) := by
  have hstem : ∀ ch ∈ "p_".toList, Piece.isTokenChar ch = true := by decide
  have hread : ∀ text ∈ sharedPaths, ReadablePath text := by
    have hbool : ∀ text ∈ sharedPaths, (Path.parse text).toBool = true := by decide +kernel
    exact fun text htext => exists_eq_ok (hbool text htext)
  exact ⟨hstem, hread, compile_projects_spellings sharedPaths hstem hread⟩

/-- An index that is written in two ways is projected twice, although both texts are read as one
path. -/
theorem projects_twice :
    ∃ p, Path.parse "a[0]" = .ok p ∧ Path.parse "a[00]" = .ok p ∧
      ∃ e, compile ["a[0]", "a[00]"] "p_" = .ok e ∧ e.Projects [p, p] ∧
        ¬ e.Projects (distinct [p, p]) := by
  have hstem : ∀ ch ∈ "p_".toList, Piece.isTokenChar ch = true := by decide
  have hzero : Path.parse "a[0]" = .ok ⟨[.name "a", .index 0]⟩ := by rfl
  have hzeros : Path.parse "a[00]" = .ok ⟨[.name "a", .index 0]⟩ := by rfl
  obtain ⟨e, he⟩ := exists_eq_ok (x := compile ["a[0]", "a[00]"] "p_") (by decide +kernel)
  have hparts : (distinct ["a[0]", "a[00]"]).mapM Path.parse =
      .ok [⟨[.name "a", .index 0]⟩, ⟨[.name "a", .index 0]⟩] := by
    have hdistinct : distinct ["a[0]", "a[00]"] = ["a[0]", "a[00]"] := by decide
    rw [hdistinct, List.mapM_cons, List.mapM_cons, hzero, hzeros]
    rfl
  obtain ⟨htwice, -⟩ := projects_of_compile hstem he hparts
  refine ⟨_, hzero, hzeros, e, he, htwice, fun honce => ?_⟩
  exact absurd (htwice.unique honce) (by decide)

end Projection

end ItemStore
