import ItemStore.Proofs.Expression.Deciding
import ItemStore.Proofs.Path.Grammar

/-!
# Offering actions to an update

An update grows by actions that are offered to it one after another, each of which is added or
refused at once.  What is added is said here by the grammar of paths (`UpdateAction.Acceptable`),
without reading anything.

* `UpdateAction.validate_eq_ok_iff`: an action passes the check exactly if it is acceptable;
  `validate_eq_error` has the two ways in which it fails.
* `Updates.offer_of_acceptable`, `offer_of_not_acceptable`: what one offer does.
* `Updates.offerAll_eq`: what a run of offers does, by induction on the run.
* `Update.compile_text_eq_empty_iff`: an update that can be compiled has a text exactly if it has an
  action, whatever its placeholders look like.
* `Updates.offers_decided_at_once` has these together: what was accepted can always be compiled.
-/

namespace ItemStore

/-! ## What is acceptable -/

/-- A value that is a set. -/
inductive AttributeValue.SetValued : AttributeValue → Prop where
  | strings (elements : List String) : SetValued (.stringSet elements)
  | numbers (elements : List String) : SetValued (.numberSet elements)
  | binaries (elements : List (List UInt8)) : SetValued (.binarySet elements)

theorem AttributeValue.isSet_iff {v : AttributeValue} : v.isSet = true ↔ v.SetValued := by
  constructor
  · intro h
    cases v with
    | stringSet elements => exact .strings elements
    | numberSet elements => exact .numbers elements
    | binarySet elements => exact .binaries elements
    | _ => cases h
  · rintro (_ | _ | _) <;> rfl

namespace UpdateAction

/-- An action that works on a whole attribute only: at an end of a list, or on the elements of a
set. -/
inductive OnWhole {P : Type} : UpdateAction P → Prop where
  | append (path : P) (v : AttributeValue) : OnWhole (.append path v)
  | prepend (path : P) (v : AttributeValue) : OnWhole (.prepend path v)
  | add (path : P) {v : AttributeValue} : v.SetValued → OnWhole (.add path v)
  | delete (path : P) {v : AttributeValue} : v.SetValued → OnWhole (.delete path v)

theorem needsTopLevel_iff {P : Type} {a : UpdateAction P} :
    a.needsTopLevel = true ↔ a.OnWhole := by
  constructor
  · intro h
    cases a with
    | append p v => exact .append p v
    | prepend p v => exact .prepend p v
    | add p v => exact .add p (AttributeValue.isSet_iff.1 h)
    | delete p v => exact .delete p (AttributeValue.isSet_iff.1 h)
    | _ => cases h
  · rintro (_ | _ | ⟨_, hv⟩ | ⟨_, hv⟩)
    · rfl
    · rfl
    · exact AttributeValue.isSet_iff.2 hv
    · exact AttributeValue.isSet_iff.2 hv

/-- An action whose text is derived as a path, and as a single name if it works on a whole attribute
only. -/
def Acceptable (a : UpdateAction String) : Prop :=
  ∃ es, Path.Derives a.path.toList es ∧ (a.OnWhole → ∃ name, es = [.name name])

/-- Why an action is refused. -/
inductive Refused (a : UpdateAction String) : StoreError → Prop where
  /-- Its text is no path, for a reason that the reader of paths gives. -/
  | unreadable {e : StoreError} : Path.parse a.path = .error e → Refused a e
  /-- It works on a whole attribute only, and its path leads into one. -/
  | nested {es : List PathElement} : Path.Derives a.path.toList es → a.OnWhole →
      (¬ ∃ name, es = [.name name]) →
      Refused a (.invalid (.nestedTarget a.clause.keyword a.path))

/-! ## The check -/

section Check

variable {a : UpdateAction String} {p : Path} {e : StoreError}

theorem isTopLevel_iff : p.isTopLevel = true ↔ ∃ name, p.elements = [.name name] := by
  unfold Path.isTopLevel
  constructor
  · intro h
    split at h
    · rename_i name hp
      exact ⟨name, hp⟩
    · cases h
  · rintro ⟨name, hp⟩
    rw [hp]

/-- A text is derived in one way only. -/
theorem acceptable_iff (h : Path.parse a.path = .ok p) :
    a.Acceptable ↔ (a.OnWhole → p.isTopLevel = true) := by
  rw [isTopLevel_iff]
  constructor
  · rintro ⟨es, hes, hwhole⟩
    have hparse : Path.parse a.path = .ok ⟨es⟩ := Path.parse_eq_ok_iff_derives.2 hes
    rw [h] at hparse
    cases hparse
    exact hwhole
  · intro hwhole
    exact ⟨p.elements, Path.parse_eq_ok_iff_derives.1 h, hwhole⟩

theorem validate_of_parse (h : Path.parse a.path = .ok p) :
    a.validate = if a.needsTopLevel && !p.isTopLevel then
      .error (.invalid (.nestedTarget a.clause.keyword a.path)) else .ok () := by
  unfold validate
  rw [h]
  rfl

theorem validate_of_parse_error (h : Path.parse a.path = .error e) : a.validate = .error e := by
  unfold validate
  rw [h]
  rfl

theorem not_acceptable_of_parse_error (h : Path.parse a.path = .error e) : ¬ a.Acceptable := by
  rintro ⟨es, hes, -⟩
  have hparse : Path.parse a.path = .ok ⟨es⟩ := Path.parse_eq_ok_iff_derives.2 hes
  rw [h] at hparse
  cases hparse

/-- An action passes the check exactly if it is acceptable. -/
theorem validate_eq_ok_iff : a.validate = .ok () ↔ a.Acceptable := by
  cases hparse : Path.parse a.path with
  | error e =>
    rw [validate_of_parse_error hparse]
    exact iff_of_false nofun (not_acceptable_of_parse_error hparse)
  | ok p =>
    rw [validate_of_parse hparse, acceptable_iff hparse, ← needsTopLevel_iff]
    cases a.needsTopLevel <;> cases p.isTopLevel <;> simp

/-- An action that is not acceptable fails the check for a reason. -/
theorem refused_of_validate (h : a.validate = .error e) : a.Refused e := by
  cases hparse : Path.parse a.path with
  | error e' =>
    rw [validate_of_parse_error hparse] at h
    cases h
    exact .unreadable hparse
  | ok p =>
    rw [validate_of_parse hparse] at h
    split at h
    · rename_i hnested
      cases h
      rw [Bool.and_eq_true, needsTopLevel_iff, Bool.not_eq_true', ← Bool.not_eq_true,
        isTopLevel_iff] at hnested
      exact .nested (Path.parse_eq_ok_iff_derives.1 hparse) hnested.1 hnested.2
    · cases h

instance : Decidable a.Acceptable :=
  decidable_of_iff (a.validate.isOk = true) <| by
    rw [← validate_eq_ok_iff]
    cases a.validate with
    | error e => exact iff_of_false nofun nofun
    | ok u => exact iff_of_true rfl rfl

end Check

end UpdateAction

/-! ## Offers -/

/-- How an update answers to an action. -/
inductive UpdateAction.Answered (a : UpdateAction String) : Except StoreError Unit → Prop where
  | accepted : a.Acceptable → Answered a (.ok ())
  | refused {e : StoreError} : ¬ a.Acceptable → a.Refused e → Answered a (.error e)

namespace Updates

variable {u : Updates} {a : UpdateAction String}

/-- What is acceptable is added behind the others. -/
theorem offer_of_acceptable (h : a.Acceptable) :
    (u.offer a).1 = .ok () ∧ (u.offer a).2.actions = u.actions ++ [a] := by
  have hpush : ∃ u', u.push a = .ok u' ∧ u'.actions = u.actions ++ [a] := by
    unfold push
    split
    · rename_i e he
      rw [UpdateAction.validate_eq_ok_iff.2 h] at he
      cases he
    · exact ⟨_, rfl, rfl⟩
  obtain ⟨u', hu', hactions⟩ := hpush
  unfold offer
  rw [hu']
  exact ⟨rfl, hactions⟩

/-- What is not acceptable is refused and changes nothing. -/
theorem offer_of_not_acceptable (h : ¬ a.Acceptable) :
    (∃ e, (u.offer a).1 = .error e ∧ a.Refused e) ∧ (u.offer a).2 = u := by
  have hpush : ∃ e, u.push a = .error e ∧ a.Refused e := by
    unfold push
    split
    · rename_i e he
      exact ⟨e, rfl, UpdateAction.refused_of_validate he⟩
    · rename_i he
      exact absurd (UpdateAction.validate_eq_ok_iff.1 he) h
  obtain ⟨e, he, hrefused⟩ := hpush
  unfold offer
  rw [he]
  exact ⟨⟨e, rfl, hrefused⟩, rfl⟩

theorem offerAll_cons (u : Updates) (a : UpdateAction String) (rest : List (UpdateAction String)) :
    u.offerAll (a :: rest) =
      ((u.offer a).1 :: ((u.offer a).2.offerAll rest).1, ((u.offer a).2.offerAll rest).2) := rfl

/-- Every action of a run is answered for itself, and those that are acceptable are added in their
order. -/
theorem offerAll_eq (u : Updates) (actions : List (UpdateAction String)) :
    List.Forall₂ UpdateAction.Answered actions (u.offerAll actions).1 ∧
      (u.offerAll actions).2.actions = u.actions ++ actions.filter fun a => a.Acceptable := by
  induction actions generalizing u with
  | nil => exact ⟨.nil, by simp [offerAll]⟩
  | cons a rest ih =>
    obtain ⟨hanswers, hactions⟩ := ih (u.offer a).2
    rw [offerAll_cons]
    by_cases ha : a.Acceptable
    · obtain ⟨hok, hadded⟩ := offer_of_acceptable (u := u) ha
      refine ⟨.cons ?_ hanswers, ?_⟩
      · rw [hok]
        exact .accepted ha
      · rw [hactions, hadded, List.filter_cons_of_pos (by simpa using ha), List.append_assoc]
        rfl
    · obtain ⟨⟨e, he, hrefused⟩, hsame⟩ := offer_of_not_acceptable (u := u) ha
      refine ⟨.cons ?_ hanswers, ?_⟩
      · rw [he]
        exact .refused ha hrefused
      · rw [hactions, hsame, List.filter_cons_of_neg (by simpa using ha)]

end Updates

/-! ## The text of an update -/

theorem length_writeAll (as : List (UpdateAction Path)) (s : Scribe) :
    (UpdateAction.writeAll as s).1.length = as.length := by
  induction as generalizing s with
  | nil => rfl
  | cons a as ih => exact congrArg (· + 1) (ih (a.write s).2)

/-- Texts behind one another are empty only if there are none. -/
theorem intercalate_eq_empty_iff {separator : String} {ts : List String}
    (h : ∀ t ∈ ts, t ≠ "") : separator.intercalate ts = "" ↔ ts = [] := by
  cases ts with
  | nil => simp
  | cons t ts =>
    have ht : t ≠ "" := h t (List.mem_cons_self ..)
    apply iff_of_false
    · cases ts with
      | nil => simpa using ht
      | cons t' ts =>
        rw [String.intercalate_cons_cons, String.append_assoc]
        intro hempty
        exact ht (String.append_eq_empty_iff.1 hempty).1
    · exact List.cons_ne_nil t ts

namespace Update

theorem writeClauses_cons (actions : List (UpdateAction Path)) (k : UpdateClause)
    (ks : List UpdateClause) (s : Scribe) :
    (writeClauses actions (k :: ks) s).1 =
      let parts := UpdateAction.writeAll (ofClause k actions) s
      let more := (writeClauses actions ks parts.2).1
      if parts.1.isEmpty then more
      else (k.keyword ++ " " ++ ", ".intercalate parts.1) :: more := by
  show (StateT.run (m := Id) (if _ then _ else _) _).1 = if _ then _ else _
  split
  · rfl
  · rfl

/-- A clause is written exactly if it has actions, and its keyword is. -/
theorem writeClauses_texts (actions : List (UpdateAction Path)) (ks : List UpdateClause)
    (s : Scribe) :
    (∀ t ∈ (writeClauses actions ks s).1, t ≠ "") ∧
      ((writeClauses actions ks s).1 = [] ↔ ∀ k ∈ ks, ofClause k actions = []) := by
  induction ks generalizing s with
  | nil =>
    have hnone : (writeClauses actions [] s).1 = [] := rfl
    rw [hnone]
    simp
  | cons k ks ih =>
    rw [writeClauses_cons]
    have hlength := length_writeAll (ofClause k actions) s
    generalize UpdateAction.writeAll (ofClause k actions) s = parts at hlength
    obtain ⟨htexts, hempty⟩ := ih parts.2
    by_cases hnone : ofClause k actions = []
    · have hparts : parts.1.isEmpty = true := by
        rw [hnone] at hlength
        simpa using hlength
      simp only [hparts, if_true]
      refine ⟨htexts, ?_⟩
      rw [hempty, List.forall_mem_cons]
      exact (and_iff_right hnone).symm
    · have hparts : parts.1.isEmpty = false := by
        rw [List.isEmpty_eq_false_iff, ← List.length_pos_iff, hlength]
        exact List.length_pos_iff.2 hnone
      simp only [hparts, Bool.false_eq_true, if_false]
      constructor
      · intro t ht
        rcases List.mem_cons.1 ht with rfl | ht
        · cases k <;> simp [UpdateClause.keyword]
        · exact htexts t ht
      · apply iff_of_false (List.cons_ne_nil _ _)
        intro hall
        exact hnone (hall k (List.mem_cons_self ..))

/-- A compiled update has a text exactly if it has an action. -/
theorem compile_text_eq_empty_iff {actions : List (UpdateAction String)} {stem : String}
    {e : Expression} (h : compile actions stem = .ok e) : e.text = "" ↔ actions = [] := by
  obtain ⟨located, hlocated, h⟩ := bind_eq_ok.1 h
  cases h
  obtain ⟨htexts, hempty⟩ := writeClauses_texts located UpdateClause.all (Scribe.new stem)
  have hlength := (mapM_eq_ok.1 hlocated).length_eq
  show " ".intercalate (writeClauses located UpdateClause.all (Scribe.new stem)).1 = "" ↔ _
  rw [intercalate_eq_empty_iff htexts, hempty]
  constructor
  · intro hnone
    have hgrouped : located = [] := by
      apply List.eq_nil_iff_forall_not_mem.2
      intro a ha
      have hclause : a.clause ∈ UpdateClause.all := by cases a.clause <;> simp [UpdateClause.all]
      have hmem : a ∈ ofClause a.clause located := mem_ofClause.2 ⟨ha, rfl⟩
      rw [hnone a.clause hclause] at hmem
      cases hmem
    rw [hgrouped, List.length_nil, List.length_eq_zero_iff] at hlength
    apply List.eq_nil_iff_forall_not_mem.2
    intro a ha
    have hmem := mem_clauses.2 ha
    rw [hlength] at hmem
    cases hmem
  · rintro rfl
    have hnil : located = [] := by
      apply List.eq_nil_of_length_eq_zero
      simpa [UpdateClause.all, ofClause] using hlength.symm
    simp [hnil, ofClause]

end Update

/-! ## Both -/

namespace Updates

/-- **What an update takes is decided at once, and for good.**

Offer any actions to a new update, from the first to the last.  Each is accepted exactly if its text
is derived as a path by the grammar, as a single name where the action works on whole attributes
only; otherwise it is refused for a reason.  The update then holds the accepted actions in their
order, and a refusal leaves it as it was.  With words of any stem it can be compiled, to an empty
text exactly if nothing was accepted. -/
theorem offers_decided_at_once (actions : List (UpdateAction String)) :
    ∃ answers u, empty.offerAll actions = (answers, u) ∧
      List.Forall₂ UpdateAction.Answered actions answers ∧
      u.actions = actions.filter (fun a => a.Acceptable) ∧
      (∀ (u' : Updates) a, ¬ a.Acceptable → (u'.offer a).2 = u') ∧
      ∀ stem, ∃ e, Update.compile u.actions stem = .ok e ∧
        (e.text = "" ↔ ∀ a ∈ actions, ¬ a.Acceptable) := by
  obtain ⟨hanswers, hactions⟩ := offerAll_eq empty actions
  refine ⟨_, _, rfl, hanswers, hactions, ?_, ?_⟩
  · intro u' a ha
    exact (offer_of_not_acceptable ha).2
  · intro stem
    obtain ⟨e, he⟩ := (Update.compile_decides _ stem).ok_iff.2
      (empty.offerAll actions).2.readable
    refine ⟨e, he, ?_⟩
    have hnone : (empty.offerAll actions).2.actions = [] ↔ ∀ a ∈ actions, ¬ a.Acceptable := by
      rw [hactions]
      simp [empty]
    exact (Update.compile_text_eq_empty_iff he).trans hnone

/-- An append inside an attribute, where only whole attributes can be appended to. -/
def nestedAppend : UpdateAction String := .append "a.b" (.list [])

/-- Escaped and real points and brackets, sets and numbers, and a text that is no path. -/
def offered : List (UpdateAction String) :=
  [nestedAppend, .append "a\\.b\\[0]" (.list []), .add "n.m" (.number "1"),
    .add "n.m" (.numberSet ["1"]), .delete "s\\" (.stringSet ["x"]), .remove "a..b", .remove "a[0]"]

theorem offers_decided_at_once_nested :
    ∃ answers u, empty.offerAll offered = (answers, u) ∧
      List.Forall₂ UpdateAction.Answered offered answers ∧
      u.actions.map UpdateAction.path = ["a\\.b\\[0]", "n.m", "s\\", "a[0]"] ∧
      ¬ nestedAppend.Acceptable ∧ (u.offer nestedAppend).2 = u ∧
      ∃ e, Update.compile u.actions "u_" = .ok e ∧ e.text ≠ "" := by
  obtain ⟨answers, u, hrun, hanswers, hactions, hsame, hcompiles⟩ := offers_decided_at_once offered
  have hnested : ¬ nestedAppend.Acceptable := by decide +kernel
  have hsome : ¬ ∀ a ∈ offered, ¬ a.Acceptable := by
    intro hall
    exact hall (.remove "a[0]") (by simp [offered]) (by decide +kernel)
  obtain ⟨e, he, hempty⟩ := hcompiles "u_"
  refine ⟨answers, u, hrun, hanswers, ?_, hnested, hsame u nestedAppend hnested, e, he, ?_⟩
  · rw [hactions]
    decide +kernel
  · intro htext
    exact hsome (hempty.1 htext)

end Updates

end ItemStore
