import ItemStore.Proofs.Expression.Checking
import ItemStore.Proofs.Expression.Grammar
import ItemStore.Proofs.Expression.Writing

/-!
# Compiled conditions mean what they say

The text of a compiled condition is read again, as a provider reads it.  There is one way to read
it; its tests are those of the tree, in their order; and it holds exactly where the tree holds.

The tree of a condition and what is read from its text differ: a conjunction has any number of
parts, and parentheses are written only around several parts inside another condition.  The
invariant that carries the induction says of a condition inside another one that it is read as a
factor, and of one on its own that it is read as a condition of any rank (`Condition.Readable`).
-/

namespace ItemStore

/-! ## The tests of a tree -/

/-- A step of a path, as it is read. -/
def PathElement.step : PathElement → Step Binding
  | .name text => .name (.name text)
  | .index n => .index n

/-- The steps of a path, as they are read. -/
def Path.steps (p : Path) : List (Step Binding) := p.elements.map PathElement.step

/-- A subject, as it is read. -/
def Subject.operand : Subject Path → Operand Binding
  | .path p => .path p.steps
  | .size p => .size p.steps

/-- A path as an operand. -/
def Path.operand (p : Path) : Operand Binding := .path p.steps

/-- A value as an operand. -/
def AttributeValue.operand (v : AttributeValue) : Operand Binding := .path [.name (.value v)]

namespace Condition

mutual

/-- The tests of a condition, from left to right. -/
def tests : Condition Path → List (Test Binding)
  | .all children => testsAll children
  | .any children => testsAll children
  | .not child => tests child
  | .compare subject op value => [.compare subject.operand op value.operand]
  | .between subject low high => [.between subject.operand low.operand high.operand]
  | .oneOf subject values => [.oneOf subject.operand (values.map AttributeValue.operand)]
  | .beginsWith path value => [.call .beginsWith [path.operand, value.operand]]
  | .contains path value => [.call .contains [path.operand, value.operand]]
  | .present path => [.call .exists [path.operand]]
  | .absent path => [.call .notExists [path.operand]]
  | .hasKind path kind =>
    [.call .type [path.operand, AttributeValue.operand (.string kind.typeName)]]

/-- The tests of conditions, from left to right. -/
def testsAll : List (Condition Path) → List (Test Binding)
  | [] => []
  | c :: rest => tests c ++ testsAll rest

end

mutual

/-- There is one test for each leaf. -/
theorem length_tests : ∀ c : Condition Path, c.tests.length = c.leafCount
  | .all children => length_testsAll children
  | .any children => length_testsAll children
  | .not child => length_tests child
  | .compare _ _ _ => rfl
  | .between _ _ _ => rfl
  | .oneOf _ _ => rfl
  | .beginsWith _ _ => rfl
  | .contains _ _ => rfl
  | .present _ => rfl
  | .absent _ => rfl
  | .hasKind _ _ => rfl

theorem length_testsAll : ∀ cs : List (Condition Path), (testsAll cs).length = leafCountAll cs
  | [] => rfl
  | c :: rest => by
    rw [testsAll, leafCountAll, List.length_append, length_tests c, length_testsAll rest]

end

end Condition

/-! ## The lexemes of phrases -/

open Lexeme

theorem shut_name (text : String) : Shut (Phrase.name text) := shut_placeholder _

theorem shut_value (v : AttributeValue) : Shut (Phrase.value v) := shut_placeholder _

theorem shut_close : Shut (Sign.literal ")" : Phrase) := shut_literal (by decide)

theorem shut_indexText (n : Nat) : Shut (Sign.literal (Scribe.indexText n) : Phrase) := by
  refine shut_literal fun c hc => ?_
  rw [Scribe.indexText, String.toList_append, List.getLast?_append] at hc
  simp at hc
  subst hc
  decide

theorem Path.shut_phraseRest (es : List PathElement) : Shut (phraseRest es) := by
  induction es with
  | nil => exact shut_nil
  | cons e es ih =>
    cases e with
    | name text => exact ((shut_literal (by decide)).append (shut_name text)).append ih
    | index n => exact (shut_indexText n).append ih

/-- A path ends in no word, but in a placeholder or in a bracket. -/
theorem Path.shut_phrase (p : Path) : Shut p.phrase := by
  obtain ⟨es⟩ := p
  cases es with
  | nil => exact shut_nil
  | cons e es =>
    cases e with
    | name text => exact (shut_name text).append (shut_phraseRest es)
    | index n => exact shut_phraseRest (.index n :: es)

theorem Phrase.shut_call (function : String) (ps : List Phrase) : Shut (call function ps) :=
  shut_close.of_right (by simp [Sign.literal])

theorem Phrase.shut_joined {separator : String} (hs : Shut (Sign.literal separator : Phrase))
    {ps : List Phrase} (h : ∀ p ∈ ps, Shut p) : Shut (joined separator ps) := by
  induction ps with
  | nil => exact shut_nil
  | cons p ps ih =>
    have hp := h p (List.mem_cons_self ..)
    have hps := ih fun q hq => h q (List.mem_cons_of_mem _ hq)
    cases ps with
    | nil => rwa [joined_singleton]
    | cons p' ps =>
      rw [joined_cons_cons]
      exact hp.append (hs.append hps)

theorem Subject.shut_phrase (s : Subject Path) : Shut s.phrase := by
  cases s with
  | path p => exact p.shut_phrase
  | size p => exact Phrase.shut_call _ _

/-! ## Paths and operands are read again -/

/-- An index is three lexemes, its brackets and its number. -/
theorem ofSigns_indexText (n : Nat) (q : Phrase) :
    ofSigns (Sign.literal (Scribe.indexText n) ++ q) =
      .text "[" :: .text (toString n) :: .text "]" :: ofSigns q := by
  have hdigits : ofSigns (Sign.literal (toString n) ++ (Sign.literal "]" ++ q)) =
      .text (toString n) :: ofSigns (Sign.literal "]" ++ q) := by
    have hword : ofSigns ((toString n).toList.map .char ++ (Sign.literal "]" ++ q)) =
        .text (String.ofList (toString n).toList) :: ofSigns (Sign.literal "]" ++ q) :=
      ofSigns_word (by simp) (isTokenChar_toString n)
        (fun c _ => by simp [Sign.literal, joinsNext, joins, isComparator, Piece.isTokenChar])
    rwa [String.ofList_toList] at hword
  have hopen : ofSigns (Sign.literal "[" : Phrase) = [.text "["] := by rfl
  have hclose : ofSigns (Sign.literal "]" : Phrase) = [.text "]"] := by rfl
  rw [Scribe.indexText, Sign.literal_append, Sign.literal_append, List.append_assoc,
    List.append_assoc, ofSigns_append (shut_literal (by decide)), hdigits,
    ofSigns_append (shut_literal (by decide)), hopen, hclose]
  rfl

theorem readsSteps_phraseRest (es : List PathElement) (rest : List (Lexeme Binding)) :
    ReadsSteps (ofSigns (Path.phraseRest es) ++ rest) (es.map PathElement.step) rest := by
  induction es with
  | nil => exact .done rest
  | cons e es ih =>
    cases e with
    | name text =>
      have hpoint : ofSigns (Sign.literal "." : Phrase) = [.text "."] := by rfl
      refine .name ?_ ih
      rw [Path.phraseRest, ofSigns_append ((shut_literal (by decide)).append (shut_name text)),
        ofSigns_append (shut_literal (by decide)), hpoint]
      rfl
    | index n =>
      refine .index ?_ ih
      rw [Path.phraseRest, ofSigns_indexText]
      rfl

/-- A path that begins with a name is read again, whatever stands behind it. -/
theorem Path.Rooted.reads {p : Path} (h : p.Rooted) (rest : List (Lexeme Binding)) :
    ReadsPath (ofSigns p.phrase ++ rest) p.steps rest := by
  obtain ⟨es⟩ := p
  obtain ⟨name, es, rfl⟩ := h
  exact .first rfl (readsSteps_phraseRest es rest)

/-- Whether a phrase is read as an operand, whatever stands behind it. -/
structure ReadsAs (p : Phrase) (o : Operand Binding) : Prop where
  /-- The phrase is cut apart from what stands behind it. -/
  shut : Shut p
  /-- The operand is read. -/
  reads : ∀ rest, ReadsOperand (ofSigns p ++ rest) o rest

theorem Path.Rooted.readsAs {p : Path} (h : p.Rooted) : ReadsAs p.phrase p.operand :=
  ⟨p.shut_phrase, fun rest => .path (h.reads rest)⟩

theorem AttributeValue.readsAs (v : AttributeValue) : ReadsAs (Phrase.value v) v.operand :=
  ⟨shut_value v, fun rest => .path (.first rfl (.done rest))⟩

theorem Subject.readsAs {s : Subject Path} (h : s.pathOf.Rooted) : ReadsAs s.phrase s.operand := by
  cases s with
  | path p => exact Path.Rooted.readsAs h
  | size p =>
    have hp : p.Rooted := h
    refine ⟨Phrase.shut_call _ _, fun rest => .size ?_ (hp.reads _)⟩
    have hopen : ofSigns (Sign.literal ("size" ++ "(") : Phrase) = [.text "size", .text "("] := by
      rfl
    have hclose : ofSigns (Sign.literal ")" : Phrase) = [.text ")"] := by rfl
    rw [Subject.phrase, Phrase.call, Phrase.joined_singleton,
      ofSigns_append ((shut_literal (by decide)).append p.shut_phrase),
      ofSigns_append (shut_literal (by decide)), hopen, hclose]
    simp

/-- Arguments with commas between them are read one by one. -/
theorem readsOperands_joined {ps : List Phrase} {os : List (Operand Binding)}
    (h : List.Forall₂ ReadsAs ps os) (hne : ps ≠ []) (rest : List (Lexeme Binding)) :
    ReadsOperands (ofSigns (Phrase.joined ", " ps) ++ .text ")" :: rest) os rest := by
  induction h with
  | nil => exact absurd rfl hne
  | @cons p o ps os hp hps ih =>
    cases hps with
    | nil =>
      rw [Phrase.joined_singleton]
      exact .last (hp.reads _)
    | @cons p' o' ps os =>
      have hcomma : ofSigns (Sign.literal ", " : Phrase) = [.text ","] := by rfl
      rw [Phrase.joined_cons_cons, ofSigns_append hp.shut,
        ofSigns_append (shut_literal (by decide)), hcomma, List.append_assoc]
      exact .more (hp.reads _) (ih (List.cons_ne_nil _ _))

/-! ## Tests are read again -/

/-- A call is read as its name and its arguments in parentheses. -/
theorem ofSigns_call {function : String} {ls : List (Lexeme Binding)} {ps : List Phrase}
    {os : List (Operand Binding)} (hshut : Shut (Sign.literal (function ++ "(") : Phrase))
    (hopen : ofSigns (Sign.literal (function ++ "(") : Phrase) = ls)
    (h : List.Forall₂ ReadsAs ps os) :
    ofSigns (Phrase.call function ps) =
      ls ++ (ofSigns (Phrase.joined ", " ps) ++ [.text ")"]) := by
  have hjoined : Shut (Phrase.joined ", " ps) := by
    refine Phrase.shut_joined (shut_literal (by decide)) fun p hp => ?_
    obtain ⟨o, -, ho⟩ := exists_of_mem_left h hp
    exact ho.shut
  have hclose : ofSigns (Sign.literal ")" : Phrase) = [.text ")"] := by rfl
  rw [Phrase.call, List.append_assoc, ofSigns_append hshut, hopen, ofSigns_append hjoined, hclose]

/-- The call of a function is read again, with its arguments in order. -/
theorem readsTest_call (function : TestFunction) {ps : List Phrase}
    {os : List (Operand Binding)} (h : List.Forall₂ ReadsAs ps os) (hne : ps ≠ [])
    (rest : List (Lexeme Binding)) :
    ReadsTest (ofSigns (Phrase.call function.name ps) ++ rest) (.call function os) rest := by
  have hopen : ofSigns (Sign.literal (function.name ++ "(") : Phrase) =
      [.text function.name, .text "("] := by
    cases function <;> cbv
  have hshut : Shut (Sign.literal (function.name ++ "(") : Phrase) :=
    shut_literal (by cases function <;> decide)
  refine .call function ?_ (readsOperands_joined h hne rest)
  rw [ofSigns_call hshut hopen h]
  simp

theorem ofSigns_sign (op : Comparison) (v : AttributeValue) :
    ofSigns (Sign.literal op.sign ++ Phrase.value v) =
      [.text op.sign, .placeholder (.value v)] := by
  cases op <;> rfl

theorem readsTest_compare {p : Phrase} {o : Operand Binding} (h : ReadsAs p o) (op : Comparison)
    (v : AttributeValue) (rest : List (Lexeme Binding)) :
    ReadsTest (ofSigns (p ++ Sign.literal op.sign ++ Phrase.value v) ++ rest)
      (.compare o op v.operand) rest := by
  rw [List.append_assoc, ofSigns_append h.shut, ofSigns_sign, List.append_assoc]
  exact .compare (Comparison.spelled_iff.2 rfl) (h.reads _) (v.readsAs.reads rest)

theorem readsTest_between {p : Phrase} {o : Operand Binding} (h : ReadsAs p o)
    (low high : AttributeValue) (rest : List (Lexeme Binding)) :
    ReadsTest (ofSigns (p ++ Sign.literal " BETWEEN " ++ Phrase.value low ++ Sign.literal " AND " ++
      Phrase.value high) ++ rest) (.between o low.operand high.operand) rest := by
  have hbetween : ofSigns (Sign.literal " BETWEEN " : Phrase) = [.text "BETWEEN"] := by rfl
  have hand : ofSigns (Sign.literal " AND " : Phrase) = [.text "AND"] := by rfl
  have hshut : Shut (Sign.literal " BETWEEN " : Phrase) := shut_literal (by decide)
  have hshut' : Shut (Sign.literal " AND " : Phrase) := shut_literal (by decide)
  simp only [List.append_assoc, ofSigns_append h.shut, ofSigns_append (shut_value low),
    ofSigns_append hshut, hbetween, ofSigns_append hshut', hand]
  exact .between (h.reads _) (low.readsAs.reads _) (high.readsAs.reads rest)

theorem readsTest_oneOf {p : Phrase} {o : Operand Binding} (h : ReadsAs p o)
    {values : List AttributeValue} (hne : values ≠ []) (rest : List (Lexeme Binding)) :
    ReadsTest (ofSigns (p ++ Sign.literal " " ++ Phrase.call "IN " (values.map Phrase.value)) ++
      rest) (.oneOf o (values.map AttributeValue.operand)) rest := by
  have hblank : ofSigns (Sign.literal " " : Phrase) = [] := by rfl
  have hshut : Shut (Sign.literal " " : Phrase) := shut_literal (by decide)
  have hopen : ofSigns (Sign.literal ("IN " ++ "(") : Phrase) = [.text "IN", .text "("] := by rfl
  have hvalues : List.Forall₂ ReadsAs (values.map Phrase.value)
      (values.map AttributeValue.operand) := by
    refine List.forall₂_map_left_iff.2 (List.forall₂_map_right_iff.2 ?_)
    exact List.forall₂_same.2 fun v _ => v.readsAs
  simp only [List.append_assoc, ofSigns_append h.shut,
    ofSigns_append hshut, hblank,
    ofSigns_call (shut_literal (by decide)) hopen hvalues]
  exact .oneOf (h.reads _) (readsOperands_joined hvalues (by simpa using hne) rest)

/-! ## Conditions are read again -/

namespace Condition

/-- Whether a condition is read as `r`: as a factor inside another condition, with any rank on its
own. -/
structure Readable (c : Condition Path) (r : Reading Binding) : Prop where
  /-- Inside another condition. -/
  nested : ∀ rest, Reads .factor (ofSigns (c.phrase true) ++ rest) r rest
  /-- On its own. -/
  alone : ∀ rest, Reads .either (ofSigns (c.phrase false) ++ rest) r rest
  /-- The tests are those of the condition. -/
  tests : r.tests = c.tests
  /-- It holds where the condition holds. -/
  holds : ∀ v i, r.holds v i = c.holds v i

/-- A test is read as a test. -/
theorem readable_test {c : Condition Path} {t : Test Binding}
    (hphrase : c.phrase false = c.phrase true)
    (h : ∀ rest, ReadsTest (ofSigns (c.phrase true) ++ rest) t rest)
    (htests : c.tests = [t]) (hholds : ∀ v i, c.holds v i = v i) : Readable c (.test t) where
  nested rest := .test (h rest)
  alone rest := by
    rw [hphrase]
    exact .both (.factor (.test (h rest)))
  tests := htests.symm
  holds v i := (hholds v i).symm

theorem shut_join (nested : Bool) {word : String}
    (hword : Shut (Sign.literal (" " ++ word ++ " ") : Phrase)) {ps : List Phrase}
    (h : ∀ p ∈ ps, Shut p) : Shut (Phrase.join nested word ps) := by
  rw [Phrase.join]
  split
  · exact shut_close.of_right (by simp [Sign.literal])
  · exact Phrase.shut_joined hword h

mutual

/-- A condition ends in no word, so that a connective may stand behind it. -/
theorem shut_phrase (nested : Bool) : ∀ c : Condition Path, Shut (c.phrase nested)
  | .all children => shut_join nested (shut_literal (by decide)) (shut_phraseAll children)
  | .any children => shut_join nested (shut_literal (by decide)) (shut_phraseAll children)
  | .not child => (shut_literal (by decide)).append (shut_phrase true child)
  | .compare _ _ value => (shut_value value).of_right (List.cons_ne_nil _ _)
  | .between _ _ high => (shut_value high).of_right (List.cons_ne_nil _ _)
  | .oneOf _ _ => (Phrase.shut_call _ _).of_right (by simp [Phrase.call, Sign.literal])
  | .beginsWith _ _ => Phrase.shut_call _ _
  | .contains _ _ => Phrase.shut_call _ _
  | .present _ => Phrase.shut_call _ _
  | .absent _ => Phrase.shut_call _ _
  | .hasKind _ _ => Phrase.shut_call _ _

theorem shut_phraseAll : ∀ cs : List (Condition Path), ∀ p ∈ phraseAll cs, Shut p
  | [], _, h => by cases h
  | c :: rest, p, h => by
    rcases List.mem_cons.1 h with rfl | h
    · exact shut_phrase true c
    · exact shut_phraseAll rest p h

end

/-- Parts with a word between them are read as what the word makes of what is read in them. -/
theorem reads_joined {k : Rank} (word : String) {op : Bool → Bool → Bool}
    {combine : Reading Binding → Reading Binding → Reading Binding}
    (fold : (Nat → Bool) → Nat → List (Condition Path) → Bool)
    (hshut : Shut (Sign.literal (" " ++ word ++ " ") : Phrase))
    (hword : ofSigns (Sign.literal (" " ++ word ++ " ") : Phrase) = [.text word])
    (hone : ∀ {l rest : List (Lexeme Binding)} {r : Reading Binding},
      Reads .factor l r rest → Reads k l r rest)
    (hmore : ∀ {l l' rest : List (Lexeme Binding)} {r s : Reading Binding},
      Reads .factor l r (.text word :: l') → Reads k l' s rest → Reads k l (combine r s) rest)
    (htests : ∀ r s, (combine r s).tests = r.tests ++ s.tests)
    (hholds : ∀ v i r s,
      (combine r s).holds v i = op (r.holds v i) (s.holds v (i + r.tests.length)))
    (hfold : ∀ v i c, fold v i [c] = c.holds v i)
    (hfold' : ∀ v i c c' cs,
      fold v i (c :: c' :: cs) = op (c.holds v i) (fold v (i + c.leafCount) (c' :: cs)))
    {cs : List (Condition Path)} {rs : List (Reading Binding)}
    (h : List.Forall₂ Readable cs rs) (hne : cs ≠ []) :
    ∃ r, (∀ rest, Reads k
        (ofSigns (Phrase.joined (" " ++ word ++ " ") (phraseAll cs)) ++ rest) r rest) ∧
      r.tests = testsAll cs ∧ ∀ v i, r.holds v i = fold v i cs := by
  induction h with
  | nil => exact absurd rfl hne
  | @cons c r cs rs hc hcs ih =>
    cases hcs with
    | nil =>
      refine ⟨r, fun rest => ?_, ?_, fun v i => ?_⟩
      · rw [phraseAll, phraseAll, Phrase.joined_singleton]
        exact hone (hc.nested rest)
      · rw [hc.tests, testsAll, testsAll, List.append_nil]
      · rw [hc.holds, hfold]
    | @cons c' r' cs rs =>
      obtain ⟨s, hreads, hs, hsholds⟩ := ih (List.cons_ne_nil _ _)
      refine ⟨combine r s, fun rest => ?_, ?_, fun v i => ?_⟩
      · have hrest := hreads rest
        rw [phraseAll] at hrest ⊢
        rw [phraseAll, Phrase.joined_cons_cons, ofSigns_append (shut_phrase true c),
          ofSigns_append hshut, hword, List.append_assoc]
        exact hmore (hc.nested _) hrest
      · rw [htests, hc.tests, hs]
        rfl
      · rw [hholds, hc.holds, hc.tests, length_tests, hsholds, hfold']

/-- A conjunction or disjunction is read like its only part, or like several in parentheses. -/
theorem readable_join {c : Condition Path} (word : String) {cs : List (Condition Path)}
    {rs : List (Reading Binding)} (h : List.Forall₂ Readable cs rs)
    (hphrase : ∀ nested, c.phrase nested = Phrase.join nested word (phraseAll cs))
    (htests : c.tests = testsAll cs) (hsingle : ∀ d, cs = [d] → ∀ v i, c.holds v i = d.holds v i)
    (hjoined : ∃ r, (∀ rest, Reads .either
        (ofSigns (Phrase.joined (" " ++ word ++ " ") (phraseAll cs)) ++ rest) r rest) ∧
      r.tests = testsAll cs ∧ ∀ v i, r.holds v i = c.holds v i)
    (hshut : Shut (Sign.literal (" " ++ word ++ " ") : Phrase)) (hne : cs ≠ []) :
    ∃ r, Readable c r := by
  cases h with
  | nil => exact absurd rfl hne
  | @cons d s cs rs hd hcs =>
    cases hcs with
    | nil =>
      have hsame : ∀ nested, c.phrase nested = d.phrase true := by
        intro nested
        rw [hphrase, phraseAll, phraseAll, Phrase.join, Phrase.joined_singleton]
        simp
      refine ⟨s, fun rest => ?_, fun rest => ?_, ?_, fun v i => ?_⟩
      · rw [hsame]
        exact hd.nested rest
      · rw [hsame]
        exact .both (.factor (hd.nested rest))
      · rw [hd.tests, htests, testsAll, testsAll, List.append_nil]
      · rw [hd.holds, hsingle d rfl]
    | @cons d' s' cs rs =>
      obtain ⟨r, hreads, hr, hholds⟩ := hjoined
      refine ⟨r, fun rest => ?_, fun rest => ?_, hr.trans htests.symm, hholds⟩
      · have hopen : ofSigns (Sign.literal "(" : Phrase) = [.text "("] := by rfl
        have hclose : ofSigns (Sign.literal ")" : Phrase) = [.text ")"] := by rfl
        have hparts : Shut (Phrase.joined (" " ++ word ++ " ") (phraseAll (d :: d' :: cs))) :=
          Phrase.shut_joined hshut (shut_phraseAll _)
        have hseveral : c.phrase true = Sign.literal "(" ++
            Phrase.joined (" " ++ word ++ " ") (phraseAll (d :: d' :: cs)) ++
              Sign.literal ")" := by
          rw [hphrase, Phrase.join]
          simp [phraseAll]
        rw [hseveral, List.append_assoc, ofSigns_append (shut_literal (by decide)), hopen,
          ofSigns_append hparts, hclose, List.append_assoc, List.append_assoc]
        exact .parentheses rfl (hreads _)
      · rw [hphrase, Phrase.join]
        exact hreads rest

mutual

/-- Every condition without empty parts whose paths begin with names can be read. -/
theorem exists_readable : ∀ c : Condition Path, c.Filled → (∀ p ∈ c.paths, p.Rooted) →
    ∃ r, Readable c r
  | .all children, hfilled, hpaths => by
    obtain ⟨rs, hrs⟩ := exists_readableAll children hfilled.2 hpaths
    refine readable_join "AND" hrs (fun _ => rfl) rfl ?_ ?_ (shut_literal (by decide))
      hfilled.1
    · rintro d rfl v i
      exact Bool.and_true _
    · obtain ⟨r, hreads, hr⟩ := reads_joined (k := .both) "AND" holdsAll
        (shut_literal (by decide)) rfl .factor .and (fun _ _ => rfl) (fun _ _ _ _ => rfl)
        (fun _ _ _ => Bool.and_true _) (fun _ _ _ _ _ => rfl) hrs hfilled.1
      exact ⟨r, fun rest => .both (hreads rest), hr⟩
  | .any children, hfilled, hpaths => by
    obtain ⟨rs, hrs⟩ := exists_readableAll children hfilled.2 hpaths
    refine readable_join "OR" hrs (fun _ => rfl) rfl ?_ ?_ (shut_literal (by decide))
      hfilled.1
    · rintro d rfl v i
      exact Bool.or_false _
    · exact reads_joined (k := .either) "OR" holdsAny
        (shut_literal (by decide)) rfl (fun h => .both (.factor h)) (fun h => .or (.factor h))
        (fun _ _ => rfl) (fun _ _ _ _ => rfl) (fun _ _ _ => Bool.or_false _)
        (fun _ _ _ _ _ => rfl) hrs hfilled.1
  | .not child, hfilled, hpaths => by
    obtain ⟨r, hr⟩ := exists_readable child hfilled hpaths
    have hnot : ofSigns (Sign.literal "NOT " : Phrase) = [.text "NOT"] := by rfl
    have hreads : ∀ nested rest,
        Reads .factor (ofSigns ((not child).phrase nested) ++ rest) (.not r) rest := by
      intro nested rest
      rw [phrase, ofSigns_append (shut_literal (by decide)), hnot, List.append_assoc]
      exact .not rfl (hr.nested rest)
    refine ⟨.not r, hreads true, fun rest => .both (.factor (hreads false rest)), hr.tests, ?_⟩
    intro v i
    rw [Reading.holds, hr.holds]
    rfl
  | .compare subject op value, _, hpaths => by
    have hs := Subject.readsAs (hpaths _ (List.mem_cons_self ..))
    exact ⟨_, readable_test rfl (readsTest_compare hs op value) rfl fun _ _ => rfl⟩
  | .between subject low high, _, hpaths => by
    have hs := Subject.readsAs (hpaths _ (List.mem_cons_self ..))
    exact ⟨_, readable_test rfl (readsTest_between hs low high) rfl fun _ _ => rfl⟩
  | .oneOf subject values, hfilled, hpaths => by
    have hs := Subject.readsAs (hpaths _ (List.mem_cons_self ..))
    exact ⟨_, readable_test rfl (readsTest_oneOf hs hfilled) rfl fun _ _ => rfl⟩
  | .beginsWith path value, _, hpaths => by
    have hp := Path.Rooted.readsAs (hpaths _ (List.mem_cons_self ..))
    exact ⟨_, readable_test rfl (readsTest_call .beginsWith (.cons hp (.cons value.readsAs .nil))
      (List.cons_ne_nil _ _)) rfl fun _ _ => rfl⟩
  | .contains path value, _, hpaths => by
    have hp := Path.Rooted.readsAs (hpaths _ (List.mem_cons_self ..))
    exact ⟨_, readable_test rfl (readsTest_call .contains (.cons hp (.cons value.readsAs .nil))
      (List.cons_ne_nil _ _)) rfl fun _ _ => rfl⟩
  | .present path, _, hpaths => by
    have hp := Path.Rooted.readsAs (hpaths _ (List.mem_cons_self ..))
    exact ⟨_, readable_test rfl (readsTest_call .exists (.cons hp .nil)
      (List.cons_ne_nil _ _)) rfl fun _ _ => rfl⟩
  | .absent path, _, hpaths => by
    have hp := Path.Rooted.readsAs (hpaths _ (List.mem_cons_self ..))
    exact ⟨_, readable_test rfl (readsTest_call .notExists (.cons hp .nil)
      (List.cons_ne_nil _ _)) rfl fun _ _ => rfl⟩
  | .hasKind path kind, _, hpaths => by
    have hp := Path.Rooted.readsAs (hpaths _ (List.mem_cons_self ..))
    have hk := AttributeValue.readsAs (.string kind.descriptor)
    have hname : kind.typeName = kind.descriptor := by cases kind <;> rfl
    refine ⟨_, readable_test rfl (readsTest_call .type (.cons hp (.cons hk .nil))
      (List.cons_ne_nil _ _)) ?_ fun _ _ => rfl⟩
    rw [tests, hname]

theorem exists_readableAll : ∀ cs : List (Condition Path), FilledAll cs →
    (∀ p ∈ pathsAll cs, p.Rooted) → ∃ rs, List.Forall₂ Readable cs rs
  | [], _, _ => ⟨[], .nil⟩
  | c :: rest, hfilled, hpaths => by
    obtain ⟨r, hr⟩ := exists_readable c hfilled.1 fun p hp =>
      hpaths p (List.mem_append_left _ hp)
    obtain ⟨rs, hrs⟩ := exists_readableAll rest hfilled.2 fun p hp =>
      hpaths p (List.mem_append_right _ hp)
    exact ⟨r :: rs, .cons hr hrs⟩

end

/-! ## Compiled texts are read again -/

/-- Compiling a condition writes what the check makes of it. -/
theorem compile_eq_ok {c : Condition String} {stem : String} {e : Expression} :
    c.compile stem = .ok e ↔
      ∃ c', c.check = .ok c' ∧ e = Scribe.compile stem (write false c') := by
  rw [compile, bind_eq_ok]
  constructor
  · rintro ⟨c', hc, h⟩
    cases h
    exact ⟨c', hc, rfl⟩
  · rintro ⟨c', hc, rfl⟩
    exact ⟨c', hc, rfl⟩

/-- What a condition compiles to spells its phrase, with placeholders of its stem. -/
theorem compile_spells {c : Condition String} {stem : String} {e : Expression}
    (hstem : ∀ ch ∈ stem.toList, Piece.isTokenChar ch = true) (h : c.compile stem = .ok e) :
    ∃ c', c.check = .ok c' ∧ Spells e.bindings e.text (c'.phrase false) ∧ e.Stemmed stem := by
  obtain ⟨c', hc, rfl⟩ := compile_eq_ok.1 h
  exact ⟨c', hc, Scribe.compile_spells hstem (yields_write false c')⟩

end Condition

/-- Whether a text is read as a condition, from its beginning to its end. -/
def ReadAs (text : String) (r : Reading String) : Prop :=
  Reads .either (ofSigns (signs text)) r []

/-- There is at most one way to read a text. -/
theorem ReadAs.unique {text : String} {r r' : Reading String} (h : ReadAs text r)
    (h' : ReadAs text r') : r = r' :=
  have hfollows : Rank.either.Follows ([] : List (Lexeme String)) := by
    simp [Rank.Follows, PathEnds]
  (Reads.unique h h' hfollows hfollows).1

/-- The lexemes of a text are those of the phrase that it stands for. -/
theorem Spells.alike {b : Bindings} {text : String} {p : Phrase} (h : Spells b text p) :
    Alike b.find? some (ofSigns (signs text)) (ofSigns p) := by
  have hresolve := h.resolve
  rw [Alike, ← ofSigns_map, ← ofSigns_map, ← hresolve]
  rfl

/-- A text is read as what the phrase is read as that it stands for. -/
theorem Spells.readAs {b : Bindings} {text : String} {p : Phrase} {r : Reading Binding}
    (h : Spells b text p) (hr : Reads .either (ofSigns p) r []) :
    ∃ r', ReadAs text r' ∧ r'.map b.find? = r.map some := by
  obtain ⟨r', rest, hreads, hmap, hrest⟩ := hr.transfer h.alike
  cases rest with
  | nil => exact ⟨r', hreads, hmap⟩
  | cons l rest => cases hrest

namespace Condition

/-- **The text of a condition means what its tree says.**

A condition compiles exactly if it makes sense.  The text is then read in one way: its tests are
those of the tree with its paths read, in their order, once placeholders are replaced by what they
stand for, and it holds where the tree holds, whatever tests hold. -/
theorem compile_keeps_meaning (c : Condition String) {stem : String}
    (hstem : ∀ ch ∈ stem.toList, Piece.isTokenChar ch = true) :
    ((∃ e, c.compile stem = .ok e) ↔ c.Sound) ∧
      ∀ e, c.compile stem = .ok e → ∃ c' r, c.ParsedAs c' ∧ ReadAs e.text r ∧
        (∀ r', ReadAs e.text r' → r' = r) ∧
        r.tests.map (Test.map e.bindings.find?) = c'.tests.map (Test.map some) ∧
        ∀ v, r.holds v 0 = c.holds v 0 := by
  constructor
  · rw [← exists_check_iff]
    constructor
    · rintro ⟨e, he⟩
      obtain ⟨c', hc, -⟩ := compile_eq_ok.1 he
      exact ⟨c', hc⟩
    · rintro ⟨c', hc⟩
      exact ⟨_, compile_eq_ok.2 ⟨c', hc, rfl⟩⟩
  · intro e he
    obtain ⟨c', hc, hspells, -⟩ := compile_spells hstem he
    obtain ⟨hfilled, hparsed⟩ := filled_of_check c hc
    obtain ⟨-, hfilled', -, hholds⟩ := same_shape c hparsed
    obtain ⟨r, hr⟩ := exists_readable c' (hfilled'.1 hfilled) (rooted_of_parsedAs hparsed)
    have halone := hr.alone []
    rw [List.append_nil] at halone
    obtain ⟨r', hread, hmap⟩ := hspells.readAs halone
    refine ⟨c', r', hparsed, hread, fun r'' hread' => hread'.unique hread, ?_, fun v => ?_⟩
    · rw [← Reading.tests_map, hmap, Reading.tests_map, hr.tests]
    · rw [← Reading.holds_map e.bindings.find?, hmap, Reading.holds_map, hr.holds, hholds]

/-- A disjunction with a conjunction of several parts, a negated one of one part and a test with an
`AND` of its own. -/
def nestedCondition : Condition String :=
  .any [.all [.compare (.path "a.b[2]") .le (.number "7"), .present "c"],
    .not (.all [.any [.oneOf (.size "a\\.b") [.number "1", .number "2"]]]),
    .between (.path "d") (.string "x") (.string "y")]

example : (nestedCondition.compile "c_").toOption.map Expression.text =
    some ("(#c_a.#c_b[2]<=:c_c AND attribute_exists(#c_d)) OR NOT size(#c_e) IN (:c_f, :c_g) OR " ++
      "#c_h BETWEEN :c_i AND :c_j") := by
  decide +kernel

theorem compile_keeps_meaning_nested :
    (∀ ch ∈ "c_".toList, Piece.isTokenChar ch = true) ∧
      ∃ e, nestedCondition.compile "c_" = .ok e ∧ ∃ c' r, nestedCondition.ParsedAs c' ∧
        ReadAs e.text r ∧ (∀ r', ReadAs e.text r' → r' = r) ∧
        r.tests.map (Test.map e.bindings.find?) = c'.tests.map (Test.map some) ∧
        ∀ v, r.holds v 0 = nestedCondition.holds v 0 := by
  have hstem : ∀ ch ∈ "c_".toList, Piece.isTokenChar ch = true := by decide
  obtain ⟨e, he⟩ := exists_eq_ok (x := nestedCondition.compile "c_") (by decide +kernel)
  exact ⟨hstem, e, he, (compile_keeps_meaning nestedCondition hstem).2 e he⟩

end Condition

end ItemStore
