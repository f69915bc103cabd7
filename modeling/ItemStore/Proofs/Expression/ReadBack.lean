import ItemStore.Proofs.Expression.Bundles
import ItemStore.Proofs.Expression.Deciding
import ItemStore.Proofs.Expression.Recovery

/-!
# Updates are read back

The text of a compiled update is read again by the grammar of updates.

* `UpdateAction.readsEdit_phrase`: the phrase of an action is read as one edit of its clause, and
  `Update.readsClauses_phrase`: the phrase of an update is read clause by clause.
* `Update.clauses_perm`: the clauses have every action once.
* `Update.compile_reads_back`: an update compiles exactly if its paths can be read.  Its actions are
  recovered from the text clause by clause, and from the compacted text up to equality of values.
-/

namespace ItemStore

open Lexeme

/-! ## Phrases of updates are read again -/

theorem Path.Rooted.readsTerm {p : Path} (h : p.Rooted) (rest : List (Lexeme Binding)) :
    ReadsTerm (ofSigns p.phrase ++ rest) p.term rest :=
  .path (h.reads rest)

theorem AttributeValue.readsTerm (v : AttributeValue) (rest : List (Lexeme Binding)) :
    ReadsTerm (ofSigns (Phrase.value v) ++ rest) v.term rest :=
  .path (.first rfl (.done rest))

/-- An equals sign in front of something that is no comparison sign is a lexeme of its own. -/
theorem ofSigns_equals {q : Phrase} (h : joinsNext '=' q = false) :
    ofSigns (Sign.literal "=" ++ q) = .text "=" :: ofSigns q := by
  show ofSigns (.char '=' :: q) = _
  rw [ofSigns, h]
  rfl

theorem Path.Rooted.joinsNext_phrase {p : Path} (h : p.Rooted) (c : Char) (q : Phrase) :
    joinsNext c (p.phrase ++ q) = false := by
  obtain ⟨es⟩ := p
  obtain ⟨name, es, rfl⟩ := h
  rfl

/-- A value behind a path is cut apart from it. -/
theorem ofSigns_blank (p : Path) (v : AttributeValue) (rest : List (Lexeme Binding)) :
    ofSigns (p.phrase ++ Sign.literal " " ++ Phrase.value v) ++ rest =
      ofSigns p.phrase ++ .placeholder (.value v) :: rest := by
  have hblank : ofSigns (Sign.literal " " : Phrase) = [] := by rfl
  rw [List.append_assoc, ofSigns_append p.shut_phrase,
    ofSigns_append (shut_literal (by decide)), hblank, List.append_assoc]
  rfl

/-- An assigned function is read as its name and two arguments in parentheses. -/
theorem ofSigns_assignCall {p : Path} {opening : String} {ls : List (Lexeme Binding)}
    {x y : Phrase} (hlast : ∀ c ∈ opening.toList.getLast?,
      Piece.isTokenChar c = false ∧ isComparator c = false)
    (hopening : ofSigns (Sign.literal opening : Phrase) = ls) (hx : Shut x) (hy : Shut y)
    {rest : List (Lexeme Binding)} :
    ofSigns (p.phrase ++ Sign.literal opening ++ x ++ Sign.literal "," ++ y ++
      Sign.literal ")") ++ rest =
        ofSigns p.phrase ++ (ls ++ (ofSigns x ++ .text "," :: (ofSigns y ++ .text ")" :: rest)))
    := by
  have hcomma : ofSigns (Sign.literal "," : Phrase) = [.text ","] := by rfl
  have hclose : ofSigns (Sign.literal ")" : Phrase) = [.text ")"] := by rfl
  have hshut : Shut (Sign.literal "," : Phrase) := shut_literal (by decide)
  simp only [List.append_assoc, ofSigns_append p.shut_phrase, ofSigns_append (shut_literal hlast),
    ofSigns_append hx, ofSigns_append hshut, ofSigns_append hy, hopening, hcomma, hclose,
    List.cons_append, List.nil_append]

/-- An assigned sum or difference is read as a path, a sign and a value. -/
theorem ofSigns_assignSigned {p q : Path} (hq : q.Rooted) {sign : String} {v : AttributeValue}
    (hlast : ∀ c ∈ sign.toList.getLast?, Piece.isTokenChar c = false ∧ isComparator c = false)
    (hsign : ofSigns (Sign.literal sign : Phrase) = [.text sign])
    {rest : List (Lexeme Binding)} :
    ofSigns (p.phrase ++ Sign.literal "=" ++ q.phrase ++ Sign.literal sign ++ Phrase.value v) ++
      rest = ofSigns p.phrase ++ .text "=" :: (ofSigns q.phrase ++
        .text sign :: (ofSigns (Phrase.value v) ++ rest)) := by
  simp only [List.append_assoc]
  rw [ofSigns_append p.shut_phrase, ofSigns_equals (hq.joinsNext_phrase _ _),
    ofSigns_append q.shut_phrase, ofSigns_append (shut_literal hlast), hsign]
  simp

namespace UpdateAction

theorem rooted_of_locate {a : UpdateAction String} {a' : UpdateAction Path}
    (h : a.locate = .ok a') : a'.path.Rooted := by
  obtain ⟨p, hp, h⟩ := bind_eq_ok.1 h
  cases h
  have hpath : (a.withPath p).path = p := by cases a <;> rfl
  rw [hpath]
  exact Path.parse_rooted hp

theorem shut_phrase (a : UpdateAction Path) : Shut a.phrase := by
  cases a with
  | set p v onlyIfAbsent =>
    cases onlyIfAbsent with
    | false => exact (shut_value v).of_right (List.cons_ne_nil _ _)
    | true => exact shut_close.of_right (by simp [Sign.literal])
  | remove p => exact p.shut_phrase
  | add p v => exact (shut_value v).of_right (List.cons_ne_nil _ _)
  | delete p v => exact (shut_value v).of_right (List.cons_ne_nil _ _)
  | append p v => exact shut_close.of_right (by simp [Sign.literal])
  | prepend p v => exact shut_close.of_right (by simp [Sign.literal])
  | increment p v => exact (shut_value v).of_right (List.cons_ne_nil _ _)
  | decrement p v => exact (shut_value v).of_right (List.cons_ne_nil _ _)

/-- The phrase of an action is read as one edit of its clause. -/
theorem readsEdit_phrase {a : UpdateAction Path} (h : a.path.Rooted)
    (rest : List (Lexeme Binding)) :
    ReadsEdit a.clause (ofSigns a.phrase ++ rest) a.edit rest := by
  cases a with
  | set p v onlyIfAbsent =>
    have hp : p.Rooted := h
    cases onlyIfAbsent with
    | false =>
      rw [phrase, path, List.append_assoc, ofSigns_append p.shut_phrase, ofSigns_equals rfl,
        List.append_assoc]
      exact .assign (hp.reads _) (.term (v.readsTerm rest))
    | true =>
      rw [phrase, path, ofSigns_assignCall (by decide) (by cbv) p.shut_phrase (shut_value v)]
      exact .assign (hp.reads _) (.term (.ifAbsent rfl (hp.reads _) (v.readsTerm _)))
  | remove p => exact .remove (Path.Rooted.reads h rest)
  | add p v =>
    have hp : p.Rooted := h
    rw [phrase, ofSigns_blank]
    exact .add (hp.reads _)
  | delete p v =>
    have hp : p.Rooted := h
    rw [phrase, ofSigns_blank]
    exact .delete (hp.reads _)
  | append p v =>
    have hp : p.Rooted := h
    rw [phrase, path, ofSigns_assignCall (by decide) (by cbv) p.shut_phrase (shut_value v)]
    exact .assign (hp.reads _) (.term (.concat rfl (hp.readsTerm _) (v.readsTerm _)))
  | prepend p v =>
    have hp : p.Rooted := h
    rw [phrase, path, ofSigns_assignCall (by decide) (by cbv) (shut_value v) p.shut_phrase]
    exact .assign (hp.reads _) (.term (.concat rfl (v.readsTerm _) (hp.readsTerm _)))
  | increment p v =>
    have hp : p.Rooted := h
    rw [phrase, path, ofSigns_assignSigned hp (by decide) rfl]
    exact .assign (hp.reads _) (.sum (hp.readsTerm _) (v.readsTerm rest))
  | decrement p v =>
    have hp : p.Rooted := h
    rw [phrase, path, ofSigns_assignSigned hp (by decide) rfl]
    exact .assign (hp.reads _) (.difference (hp.readsTerm _) (v.readsTerm rest))

/-- Actions of one clause with commas between them are read one by one. -/
theorem readsEdits_joined {k : UpdateClause} {as : List (UpdateAction Path)} (hne : as ≠ [])
    (h : ∀ a ∈ as, a.clause = k ∧ a.path.Rooted) (rest : List (Lexeme Binding)) :
    ReadsEdits k (ofSigns (Phrase.joined ", " (as.map UpdateAction.phrase)) ++ rest)
      (as.map UpdateAction.edit) rest := by
  induction as with
  | nil => exact absurd rfl hne
  | cons a as ih =>
    obtain ⟨rfl, hrooted⟩ := h a (List.mem_cons_self ..)
    cases as with
    | nil => exact .last (by simpa [Phrase.joined_singleton] using readsEdit_phrase hrooted rest)
    | cons a' as =>
      have hcomma : ofSigns (Sign.literal ", " : Phrase) = [.text ","] := by rfl
      rw [List.map_cons, List.map_cons, Phrase.joined_cons_cons, ofSigns_append a.shut_phrase,
        ofSigns_append (shut_literal (by decide)), hcomma, List.append_assoc]
      exact .more (readsEdit_phrase hrooted _)
        (ih (List.cons_ne_nil _ _) fun b hb => h b (List.mem_cons_of_mem _ hb))

end UpdateAction

namespace Update

/-- The clauses that have actions, with these actions. -/
def clauses {P : Type} (actions : List (UpdateAction P)) :
    List (UpdateClause × List (UpdateAction P)) :=
  (UpdateClause.all.filter fun k => !(ofClause k actions).isEmpty).map fun k =>
    (k, ofClause k actions)

theorem phrase_eq_joined (actions : List (UpdateAction Path)) :
    phrase actions = Phrase.joined " " ((clauses actions).map fun c => clausePhrase c.1 c.2) := by
  simp [phrase, clausePhrases, clauses, Function.comp_def]

theorem shut_clausePhrase {k : UpdateClause} {as : List (UpdateAction Path)} :
    Shut (clausePhrase k as) := by
  have hblank : Shut (Sign.literal (k.keyword ++ " ") : Phrase) :=
    shut_literal (by cases k <;> decide)
  refine hblank.append (Phrase.shut_joined (shut_literal (by decide)) fun p hp => ?_)
  obtain ⟨a, -, rfl⟩ := List.mem_map.1 hp
  exact a.shut_phrase

/-- Clauses that have actions are read one by one. -/
theorem readsClauses_joined {cs : List (UpdateClause × List (UpdateAction Path))}
    (h : ∀ c ∈ cs, c.2 ≠ [] ∧ ∀ a ∈ c.2, a.clause = c.1 ∧ a.path.Rooted) :
    ReadsClauses (ofSigns (Phrase.joined " " (cs.map fun c => clausePhrase c.1 c.2)))
      (mapClauses UpdateAction.edit cs) := by
  have hkeyword (k : UpdateClause) (q : Phrase) :
      ofSigns (Sign.literal (k.keyword ++ " ") ++ q) = .text k.keyword :: ofSigns q := by
    have hword : ofSigns (Sign.literal (k.keyword ++ " ") : Phrase) = [.text k.keyword] := by
      cases k <;> cbv
    rw [ofSigns_append (shut_literal (by cases k <;> decide)), hword]
    rfl
  induction cs with
  | nil => exact .done
  | cons c cs ih =>
    obtain ⟨hne, hall⟩ := h c (List.mem_cons_self ..)
    have ih' := ih fun c' hc' => h c' (List.mem_cons_of_mem _ hc')
    cases cs with
    | nil =>
      have hedits := UpdateAction.readsEdits_joined hne hall []
      rw [List.append_nil] at hedits
      rw [List.map_singleton, Phrase.joined_singleton, clausePhrase, hkeyword]
      exact .clause rfl hedits .done
    | cons c' cs =>
      have hblank : ofSigns (Sign.literal " " : Phrase) = [] := by rfl
      rw [List.map_cons, List.map_cons, Phrase.joined_cons_cons, ofSigns_append shut_clausePhrase,
        ofSigns_append (shut_literal (by decide)), hblank, List.nil_append, clausePhrase, hkeyword]
      exact .clause rfl (UpdateAction.readsEdits_joined hne hall _) ih'

theorem readsClauses_phrase {actions : List (UpdateAction Path)}
    (h : ∀ a ∈ actions, a.path.Rooted) :
    ReadsClauses (ofSigns (phrase actions)) (mapClauses UpdateAction.edit (clauses actions)) := by
  rw [phrase_eq_joined]
  refine readsClauses_joined fun c hc => ?_
  obtain ⟨k, hk, rfl⟩ := List.mem_map.1 hc
  refine ⟨by simpa using (List.mem_filter.1 hk).2, fun a ha => ?_⟩
  obtain ⟨hmem, hclause⟩ := mem_ofClause.1 ha
  exact ⟨hclause, h a hmem⟩

end Update

/-! ## Compiled updates are read back -/

/-- What is compiled has every placeholder bound, and to one thing only. -/
theorem Expression.closed_of_spells {e : Expression} {p : Phrase} {stem : String}
    (h : Spells e.bindings e.text p) (hstem : e.Stemmed stem) : e.Closed := by
  constructor
  · rintro t ⟨hn, hv⟩
    obtain ⟨cs, hcs⟩ := hstem.names t hn
    obtain ⟨cs', hcs'⟩ := hstem.values t hv
    rw [hcs] at hcs'
    exact absurd (List.head_eq_of_cons_eq hcs') (by decide)
  · intro t ht
    have htoken : t ∈ tokensOf e.text := by simpa [Compaction.tokensOfAll] using ht
    exact Bindings.find?_isSome.1 (h.exists_find? htoken)

/-- Signs that say the same are the same once values are in canonical form. -/
theorem Says.map_canonical {p q : List (Sign (Option Binding))} (h : Says p q) :
    p.map (Sign.map (Option.map (Binding.mapValue AttributeValue.canonical))) =
      q.map (Sign.map (Option.map (Binding.mapValue AttributeValue.canonical))) := by
  have hbinding {x y : Binding} (hxy : x.same y = true) :
      x.mapValue AttributeValue.canonical = y.mapValue AttributeValue.canonical := by
    cases x with
    | name n => rw [Binding.eq_of_same_name hxy]
    | value v =>
      cases y with
      | name n => cases hxy
      | value w => exact congrArg Binding.value (AttributeValue.same_iff_canonical.1 hxy)
  refine eq_of_forall₂ (R := Eq) (fun _ _ heq => heq)
    (List.forall₂_map_left_iff.2 (List.forall₂_map_right_iff.2 (h.imp fun s t hst => ?_)))
  cases hst with
  | char c => rfl
  | bound hxy => rw [Sign.map, Sign.map, Option.map_some, Option.map_some, hbinding hxy]

namespace Update

/-- Every action stands in its clause, once. -/
theorem clauses_perm {P : Type} (actions : List (UpdateAction P)) :
    ((clauses actions).flatMap Prod.snd).Perm actions := by
  have hall : (clauses actions).flatMap Prod.snd =
      UpdateClause.all.flatMap fun k => ofClause k actions := by
    have hfilled : ∀ ks : List UpdateClause,
        ((ks.filter fun k => !(ofClause k actions).isEmpty).flatMap fun k => ofClause k actions) =
          ks.flatMap fun k => ofClause k actions := by
      intro ks
      induction ks with
      | nil => rfl
      | cons k ks ih =>
        rw [List.filter_cons, List.flatMap_cons]
        split
        · rw [List.flatMap_cons, ih]
        · rename_i hempty
          have hnone : ofClause k actions = [] := by simpa using hempty
          rw [hnone, List.nil_append, ih]
    rw [clauses, List.flatMap_map]
    exact hfilled UpdateClause.all
  rw [hall]
  refine flatMap_filter_perm UpdateAction.clause (by decide) fun a _ => ?_
  cases a.clause <;> decide

/-- **The text of an update gives its actions back.**

An update compiles exactly if its paths can be read.  The text is then read in one way as an update,
and with placeholders replaced by what they stand for it gives the actions back, each once, with its
kind, guard and value and with the steps that its path is derived with: those of a clause together
in their order, the clauses in theirs.  The compacted text gives them back up to equality of
values. -/
theorem compile_reads_back (actions : List (UpdateAction String)) {stem : String}
    (hstem : ∀ ch ∈ stem.toList, Piece.isTokenChar ch = true) :
    ((∃ e, compile actions stem = .ok e) ↔ ReadableActions actions) ∧
      ∀ e, compile actions stem = .ok e → ∃ located,
        List.Forall₂ UpdateAction.ParsedAs actions located ∧
        ((clauses located).flatMap Prod.snd).Perm located ∧
        e.ReadsBack (clauses located) ∧
        ∃ compacted, e.compact.ReadsBack compacted ∧ SameClauses compacted (clauses located) := by
  refine ⟨(compile_decides actions stem).ok_iff, fun e he => ?_⟩
  obtain ⟨located, hlocated, hspells, hstemmed⟩ := compile_spells hstem he
  have hrooted : ∀ a ∈ located, a.path.Rooted := by
    intro a ha
    obtain ⟨b, -, hb⟩ := exists_of_mem_left (mapM_eq_ok.1 hlocated).flip ha
    exact UpdateAction.rooted_of_locate hb
  have hreads := readsClauses_phrase hrooted
  refine ⟨located, UpdateAction.mapM_locate_eq_ok_iff.1 hlocated, clauses_perm located, ?_, ?_⟩
  · obtain ⟨clauses', hback, hsame⟩ :=
      Expression.readsBack_of_map_eq (f := id) (congrArg _ hspells.resolve) hreads
    have hid {Q : Type} (cs : List (UpdateClause × List (UpdateAction Q))) :
        mapClauses (UpdateAction.mapValue id) cs = cs := by
      simp [mapClauses, UpdateAction.mapValue_id]
    rw [hid, hid] at hsame
    rwa [hsame] at hback
  · have hclosed := Expression.closed_of_spells hspells hstemmed
    have hsaid := (Expression.saysAs_compact hclosed).trans hspells.says
    obtain ⟨compacted, hback, hsame⟩ :=
      Expression.readsBack_of_map_eq hsaid.map_canonical hreads
    exact ⟨compacted, hback, sameClauses_of_canonical hsame⟩

/-- Actions of every kind, guarded and not, that share paths and values. -/
def mixedActions : List (UpdateAction String) :=
  [.remove "a.b[2]", .set "c" (.stringSet ["x", "y"]) false, .add "d" (.number "1"),
    .set "a.c" (.number "1") true, .append "e" (.list [.null true]),
    .delete "f" (.stringSet ["y", "x"]), .prepend "e" (.list [.null true]),
    .increment "a.b[2]" (.number "1"), .decrement "c" (.number "1"), .remove "c"]

example : (compile mixedActions "u_").toOption.map Expression.text =
    some ("SET #u_a=:u_b, #u_c.#u_d=if_not_exists(#u_c.#u_d,:u_e), " ++
      "#u_f=list_append(#u_f,:u_g), #u_h=list_append(:u_i,#u_h), " ++
      "#u_j.#u_k[2]=#u_j.#u_k[2]+:u_l, #u_m=#u_m-:u_n ADD #u_o :u_p " ++
      "REMOVE #u_q.#u_r[2], #u_s DELETE #u_t :u_u") := by
  decide +kernel

theorem compile_reads_back_mixed :
    (∀ ch ∈ "u_".toList, Piece.isTokenChar ch = true) ∧
      ∃ e, compile mixedActions "u_" = .ok e ∧ ∃ located,
        List.Forall₂ UpdateAction.ParsedAs mixedActions located ∧
        ((clauses located).flatMap Prod.snd).Perm located ∧
        e.ReadsBack (clauses located) ∧
        ∃ compacted, e.compact.ReadsBack compacted ∧
          SameClauses compacted (clauses located) := by
  have hstem : ∀ ch ∈ "u_".toList, Piece.isTokenChar ch = true := by decide
  obtain ⟨e, he⟩ := exists_eq_ok (x := compile mixedActions "u_") (by decide +kernel)
  exact ⟨hstem, e, he, (compile_reads_back mixedActions hstem).2 e he⟩

end Update

end ItemStore
