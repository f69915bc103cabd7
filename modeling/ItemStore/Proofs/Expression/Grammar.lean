import ItemStore.Expression.Condition
import ItemStore.Proofs.Expression.Lexemes
import ItemStore.Proofs.Expression.Words

/-!
# How a provider reads conditions

The grammar of conditions over lexemes.  A test compares operands or applies a function to them; a
*factor* is a test, a condition in parentheses or the negation of a factor; factors are joined by
`AND`, and conditions of that rank by `OR`.  The `AND` of a `BETWEEN` belongs to its test.

Each relation says how the lexemes begin and what is left of them: `Reads k l r rest` reads `r`
with the rank `k` from the front of `l`.

* `Reads.unique`: there is at most one way to read a condition, as long as what is left cannot go
  on with it (`Rank.Follows`).
* `Reads.transfer`: what the placeholders are does not matter to the grammar.
-/

namespace ItemStore

/-! ## What is read -/

/-- A step of a path, with names of type `α`. -/
inductive Step (α : Type) where
  /-- To an attribute or map entry. -/
  | name (a : α)
  /-- To an element of a list. -/
  | index (n : Nat)
deriving DecidableEq, Repr

/-- What a test looks at; a value alone is a path of one step. -/
inductive Operand (α : Type) where
  /-- What a path leads to. -/
  | path (steps : List (Step α))
  /-- The size of what a path leads to. -/
  | size (steps : List (Step α))
deriving DecidableEq, Repr

/-- A function of a test. -/
inductive TestFunction where
  | beginsWith
  | contains
  | exists
  | notExists
  | type
deriving DecidableEq, Repr

/-- The name of a function. -/
def TestFunction.name : TestFunction → String
  | .beginsWith => "begins_with"
  | .contains => "contains"
  | .exists => "attribute_exists"
  | .notExists => "attribute_not_exists"
  | .type => "attribute_type"

/-- How a comparison is spelled. -/
inductive Comparison.Spelled : Comparison → String → Prop
  | eq : Spelled .eq "="
  | ne : Spelled .ne "<>"
  | lt : Spelled .lt "<"
  | le : Spelled .le "<="
  | gt : Spelled .gt ">"
  | ge : Spelled .ge ">="

/-- The name under which a test asks for a kind of values. -/
def AttributeKind.typeName : AttributeKind → String
  | .string => "S"
  | .number => "N"
  | .binary => "B"
  | .stringSet => "SS"
  | .numberSet => "NS"
  | .binarySet => "BS"
  | .bool => "BOOL"
  | .null => "NULL"
  | .list => "L"
  | .map => "M"

/-- A test. -/
inductive Test (α : Type) where
  /-- A comparison. -/
  | compare (left : Operand α) (op : Comparison) (right : Operand α)
  /-- An operand between two others. -/
  | between (subject low high : Operand α)
  /-- An operand among others. -/
  | oneOf (subject : Operand α) (choices : List (Operand α))
  /-- A function applied to operands. -/
  | call (function : TestFunction) (arguments : List (Operand α))
deriving DecidableEq, Repr

/-- A condition as it is read. -/
inductive Reading (α : Type) where
  | test (t : Test α)
  | not (r : Reading α)
  | and (left right : Reading α)
  | or (left right : Reading α)
deriving DecidableEq, Repr

section Map

variable {α β : Type}

/-- The same step with another name. -/
def Step.map (f : α → β) : Step α → Step β
  | .name a => .name (f a)
  | .index n => .index n

/-- The same operand with other names. -/
def Operand.map (f : α → β) : Operand α → Operand β
  | .path steps => .path (steps.map (Step.map f))
  | .size steps => .size (steps.map (Step.map f))

/-- The same test with other names. -/
def Test.map (f : α → β) : Test α → Test β
  | .compare a op b => .compare (a.map f) op (b.map f)
  | .between a b c => .between (a.map f) (b.map f) (c.map f)
  | .oneOf a os => .oneOf (a.map f) (os.map (Operand.map f))
  | .call function os => .call function (os.map (Operand.map f))

/-- The same condition with other names. -/
def Reading.map (f : α → β) : Reading α → Reading β
  | .test t => .test (t.map f)
  | .not r => .not (r.map f)
  | .and r s => .and (r.map f) (s.map f)
  | .or r s => .or (r.map f) (s.map f)

end Map

namespace Reading

variable {α : Type}

/-- The tests of a condition, from left to right. -/
def tests : Reading α → List (Test α)
  | .test t => [t]
  | .not r => r.tests
  | .and r s => r.tests ++ s.tests
  | .or r s => r.tests ++ s.tests

/-- Whether a condition holds, if its tests hold as `v` says, counted from `i` on. -/
def holds (v : Nat → Bool) (i : Nat) : Reading α → Bool
  | .test _ => v i
  | .not r => !r.holds v i
  | .and r s => r.holds v i && s.holds v (i + r.tests.length)
  | .or r s => r.holds v i || s.holds v (i + r.tests.length)

end Reading

section MapLaws

variable {α β : Type}

/-- Renaming the placeholders of a reading renames those of its tests. -/
theorem Reading.tests_map (f : α → β) (r : Reading α) :
    (r.map f).tests = r.tests.map (Test.map f) := by
  induction r with
  | test t => rfl
  | not r ih => exact ih
  | and r s ihr ihs => rw [Reading.map, tests, tests, ihr, ihs, List.map_append]
  | or r s ihr ihs => rw [Reading.map, tests, tests, ihr, ihs, List.map_append]

/-- Whether a reading holds does not depend on what its placeholders are called. -/
theorem Reading.holds_map (f : α → β) (v : Nat → Bool) (r : Reading α) (i : Nat) :
    (r.map f).holds v i = r.holds v i := by
  induction r generalizing i with
  | test t => rfl
  | not r ih => rw [Reading.map, holds, holds, ih]
  | and r s ihr ihs => rw [Reading.map, holds, holds, ihr, ihs, tests_map, List.length_map]
  | or r s ihr ihs => rw [Reading.map, holds, holds, ihr, ihs, tests_map, List.length_map]

end MapLaws

/-! ## The grammar -/

section Grammar

variable {α : Type}

/-- Steps of a path behind its first one. -/
inductive ReadsSteps : List (Lexeme α) → List (Step α) → List (Lexeme α) → Prop
  | done (rest : List (Lexeme α)) : ReadsSteps rest [] rest
  | name {a : α} {l l' rest : List (Lexeme α)} {es : List (Step α)}
      (hl : l = .text "." :: .placeholder a :: l') (h : ReadsSteps l' es rest) :
      ReadsSteps l (.name a :: es) rest
  | index {n : Nat} {l l' rest : List (Lexeme α)} {es : List (Step α)}
      (hl : l = .text "[" :: .text (toString n) :: .text "]" :: l') (h : ReadsSteps l' es rest) :
      ReadsSteps l (.index n :: es) rest

/-- A path. -/
inductive ReadsPath : List (Lexeme α) → List (Step α) → List (Lexeme α) → Prop
  | first {a : α} {l l' rest : List (Lexeme α)} {es : List (Step α)}
      (hl : l = .placeholder a :: l') (h : ReadsSteps l' es rest) :
      ReadsPath l (.name a :: es) rest

/-- An operand. -/
inductive ReadsOperand : List (Lexeme α) → Operand α → List (Lexeme α) → Prop
  | path {l rest : List (Lexeme α)} {es : List (Step α)} (h : ReadsPath l es rest) :
      ReadsOperand l (.path es) rest
  | size {l l' rest : List (Lexeme α)} {es : List (Step α)}
      (hl : l = .text "size" :: .text "(" :: l') (h : ReadsPath l' es (.text ")" :: rest)) :
      ReadsOperand l (.size es) rest

/-- Operands with commas between them, up to a closing parenthesis. -/
inductive ReadsOperands : List (Lexeme α) → List (Operand α) → List (Lexeme α) → Prop
  | last {l rest : List (Lexeme α)} {o : Operand α} (h : ReadsOperand l o (.text ")" :: rest)) :
      ReadsOperands l [o] rest
  | more {l l' rest : List (Lexeme α)} {o : Operand α} {os : List (Operand α)}
      (h : ReadsOperand l o (.text "," :: l')) (hrest : ReadsOperands l' os rest) :
      ReadsOperands l (o :: os) rest

/-- A test. -/
inductive ReadsTest : List (Lexeme α) → Test α → List (Lexeme α) → Prop
  | compare {l l' rest : List (Lexeme α)} {a b : Operand α} {op : Comparison} {sign : String}
      (hop : op.Spelled sign) (ha : ReadsOperand l a (.text sign :: l'))
      (hb : ReadsOperand l' b rest) : ReadsTest l (.compare a op b) rest
  | between {l l' l'' rest : List (Lexeme α)} {a b c : Operand α}
      (ha : ReadsOperand l a (.text "BETWEEN" :: l'))
      (hb : ReadsOperand l' b (.text "AND" :: l'')) (hc : ReadsOperand l'' c rest) :
      ReadsTest l (.between a b c) rest
  | oneOf {l l' rest : List (Lexeme α)} {a : Operand α} {os : List (Operand α)}
      (ha : ReadsOperand l a (.text "IN" :: .text "(" :: l')) (hos : ReadsOperands l' os rest) :
      ReadsTest l (.oneOf a os) rest
  | call {l l' rest : List (Lexeme α)} {os : List (Operand α)} (function : TestFunction)
      (hl : l = .text function.name :: .text "(" :: l') (hos : ReadsOperands l' os rest) :
      ReadsTest l (.call function os) rest

/-- How closely the parts of a condition are bound together. -/
inductive Rank where
  /-- A test, a negation or a condition in parentheses. -/
  | factor
  /-- Factors that are joined by `AND`. -/
  | both
  /-- Conditions that are joined by `OR`. -/
  | either
deriving DecidableEq, Repr

/-- A condition of a rank. -/
inductive Reads : Rank → List (Lexeme α) → Reading α → List (Lexeme α) → Prop
  | test {l rest : List (Lexeme α)} {t : Test α} (h : ReadsTest l t rest) :
      Reads .factor l (.test t) rest
  | parentheses {l l' rest : List (Lexeme α)} {r : Reading α} (hl : l = .text "(" :: l')
      (h : Reads .either l' r (.text ")" :: rest)) : Reads .factor l r rest
  | not {l l' rest : List (Lexeme α)} {r : Reading α} (hl : l = .text "NOT" :: l')
      (h : Reads .factor l' r rest) : Reads .factor l (.not r) rest
  | factor {l rest : List (Lexeme α)} {r : Reading α} (h : Reads .factor l r rest) :
      Reads .both l r rest
  | and {l l' rest : List (Lexeme α)} {r s : Reading α} (h : Reads .factor l r (.text "AND" :: l'))
      (hrest : Reads .both l' s rest) : Reads .both l (.and r s) rest
  | both {l rest : List (Lexeme α)} {r : Reading α} (h : Reads .both l r rest) :
      Reads .either l r rest
  | or {l l' rest : List (Lexeme α)} {r s : Reading α} (h : Reads .both l r (.text "OR" :: l'))
      (hrest : Reads .either l' s rest) : Reads .either l (.or r s) rest

end Grammar

/-! ## One way to read -/

section Unique

variable {α : Type} {l rest rest' : List (Lexeme α)}

/-- Whether lexemes do not go on with a path in front of them. -/
def PathEnds (rest : List (Lexeme α)) : Prop :=
  rest.head? ≠ some (.text ".") ∧ rest.head? ≠ some (.text "[")

theorem pathEnds_text {s : String} (h : s ≠ "." ∧ s ≠ "[") (l : List (Lexeme α)) :
    PathEnds (.text s :: l) := by
  simpa [PathEnds] using h

/-- Steps go on as long as a point or a bracket follows, so they end in one place only. -/
theorem ReadsSteps.unique {es es' : List (Step α)} (h : ReadsSteps l es rest)
    (h' : ReadsSteps l es' rest') (hrest : PathEnds rest) (hrest' : PathEnds rest') :
    es = es' ∧ rest = rest' := by
  induction h generalizing es' with
  | done rest =>
    cases h' with
    | done => exact ⟨rfl, rfl⟩
    | name hl _ => exact absurd (by rw [hl]; rfl) hrest.1
    | index hl _ => exact absurd (by rw [hl]; rfl) hrest.2
  | name hl h ih =>
    cases h' with
    | done => exact absurd (by rw [hl]; rfl) hrest'.1
    | name hl' h' =>
      rw [hl] at hl'
      cases hl'
      obtain ⟨rfl, rfl⟩ := ih h' hrest
      exact ⟨rfl, rfl⟩
    | index hl' _ => simp [hl] at hl'
  | index hl h ih =>
    cases h' with
    | done => exact absurd (by rw [hl]; rfl) hrest'.2
    | name hl' _ => simp [hl] at hl'
    | index hl' h' =>
      simp only [hl, List.cons.injEq, Lexeme.text.injEq, true_and] at hl'
      obtain ⟨hn, rfl⟩ := hl'
      obtain rfl := toString_injective hn
      obtain ⟨rfl, rfl⟩ := ih h' hrest
      exact ⟨rfl, rfl⟩

/-- What is read as a path is read as one path. -/
theorem ReadsPath.unique {es es' : List (Step α)} (h : ReadsPath l es rest)
    (h' : ReadsPath l es' rest') (hrest : PathEnds rest) (hrest' : PathEnds rest') :
    es = es' ∧ rest = rest' := by
  obtain ⟨hl, h⟩ := h
  obtain ⟨hl', h'⟩ := h'
  rw [hl] at hl'
  cases hl'
  obtain ⟨rfl, rfl⟩ := h.unique h' hrest hrest'
  exact ⟨rfl, rfl⟩

/-- What is read as an operand is read as one operand: a size has its word in front. -/
theorem ReadsOperand.unique {o o' : Operand α} (h : ReadsOperand l o rest)
    (h' : ReadsOperand l o' rest') (hrest : PathEnds rest) (hrest' : PathEnds rest') :
    o = o' ∧ rest = rest' := by
  cases h with
  | path h =>
    cases h' with
    | path h' =>
      obtain ⟨rfl, rfl⟩ := h.unique h' hrest hrest'
      exact ⟨rfl, rfl⟩
    | size hl' _ =>
      obtain ⟨hl, -⟩ := h
      simp [hl] at hl'
  | size hl h =>
    cases h' with
    | path h' =>
      obtain ⟨hl', -⟩ := h'
      simp [hl] at hl'
    | size hl' h' =>
      simp only [hl, List.cons.injEq, true_and] at hl'
      subst hl'
      obtain ⟨rfl, heq⟩ := h.unique h' (pathEnds_text (by decide) _) (pathEnds_text (by decide) _)
      cases heq
      exact ⟨rfl, rfl⟩

/-- Operands in parentheses are read one way, comma by comma. -/
theorem ReadsOperands.unique {os os' : List (Operand α)} (h : ReadsOperands l os rest)
    (h' : ReadsOperands l os' rest') : os = os' ∧ rest = rest' := by
  induction h generalizing os' with
  | last h =>
    cases h' with
    | last h' =>
      obtain ⟨rfl, heq⟩ := h.unique h' (pathEnds_text (by decide) _) (pathEnds_text (by decide) _)
      cases heq
      exact ⟨rfl, rfl⟩
    | more h' _ =>
      have heq := (h.unique h' (pathEnds_text (by decide) _) (pathEnds_text (by decide) _)).2
      simp at heq
  | more h _ ih =>
    cases h' with
    | last h' =>
      have heq := (h.unique h' (pathEnds_text (by decide) _) (pathEnds_text (by decide) _)).2
      simp at heq
    | more h' hrest' =>
      obtain ⟨rfl, heq⟩ := h.unique h' (pathEnds_text (by decide) _) (pathEnds_text (by decide) _)
      cases heq
      obtain ⟨rfl, rfl⟩ := ih hrest'
      exact ⟨rfl, rfl⟩

section Spelled

variable {op op' : Comparison} {sign : String}

/-- The sign of a comparison is how it is spelled. -/
theorem Comparison.spelled_iff : op.Spelled sign ↔ sign = op.sign := by
  constructor
  · intro h
    cases h <;> rfl
  · rintro rfl
    cases op <;> constructor

/-- No two comparisons have one sign. -/
theorem Comparison.sign_injective (h : op.sign = op'.sign) : op = op' := by
  cases op <;> cases op' <;> first | rfl | simp [Comparison.sign] at h

theorem Comparison.Spelled.unique (h : op.Spelled sign) (h' : op'.Spelled sign) : op = op' :=
  sign_injective ((spelled_iff.1 h).symm.trans (spelled_iff.1 h'))

/-- No sign is one of the words that stand in its place. -/
theorem Comparison.Spelled.ne_word (h : op.Spelled sign) : sign ≠ "BETWEEN" ∧ sign ≠ "IN" := by
  cases h <;> decide

theorem Comparison.Spelled.ends (h : op.Spelled sign) : sign ≠ "." ∧ sign ≠ "[" := by
  cases h <;> decide

end Spelled

theorem TestFunction.name_injective {f f' : TestFunction} (h : f.name = f'.name) : f = f' := by
  cases f <;> cases f' <;> first | rfl | simp [name] at h

/-- No function has the name of something else that a test may begin with. -/
theorem TestFunction.name_ne (f : TestFunction) :
    f.name ≠ "size" ∧ f.name ≠ "NOT" ∧ f.name ≠ "(" := by
  cases f <;> decide

/-- The only text that begins an operand is `size`. -/
theorem ReadsOperand.ne_text {o : Operand α} (h : ReadsOperand l o rest) {s : String}
    (hs : s ≠ "size") (l' : List (Lexeme α)) : l ≠ .text s :: l' := by
  rintro rfl
  cases h with
  | path h =>
    obtain ⟨hl, -⟩ := h
    cases hl
  | size hl _ =>
    simp only [List.cons.injEq, Lexeme.text.injEq] at hl
    exact hs hl.1

/-- What stands behind the first operand of a test is read in one way. -/
theorem ReadsOperand.unique_text {o o' : Operand α} {s s' : String} {k k' : List (Lexeme α)}
    (h : ReadsOperand l o (.text s :: k)) (h' : ReadsOperand l o' (.text s' :: k'))
    (hs : s ≠ "." ∧ s ≠ "[") (hs' : s' ≠ "." ∧ s' ≠ "[") : o = o' ∧ s = s' ∧ k = k' := by
  obtain ⟨rfl, heq⟩ := h.unique h' (pathEnds_text hs _) (pathEnds_text hs' _)
  cases heq
  exact ⟨rfl, rfl, rfl⟩

/-- What follows an operand tells which test it is. -/
theorem ReadsTest.unique {t t' : Test α} (h : ReadsTest l t rest) (h' : ReadsTest l t' rest')
    (hrest : PathEnds rest) (hrest' : PathEnds rest') : t = t' ∧ rest = rest' := by
  cases h with
  | compare hop ha hb =>
    cases h' with
    | compare hop' ha' hb' =>
      obtain ⟨rfl, rfl, rfl⟩ := ha.unique_text ha' hop.ends hop'.ends
      obtain rfl := hop.unique hop'
      obtain ⟨rfl, rfl⟩ := hb.unique hb' hrest hrest'
      exact ⟨rfl, rfl⟩
    | between ha' _ _ => exact absurd (ha.unique_text ha' hop.ends (by decide)).2.1 hop.ne_word.1
    | oneOf ha' _ => exact absurd (ha.unique_text ha' hop.ends (by decide)).2.1 hop.ne_word.2
    | call f hl _ => exact absurd hl (ha.ne_text f.name_ne.1 _)
  | between ha hb hc =>
    cases h' with
    | compare hop' ha' _ =>
      exact absurd (ha'.unique_text ha hop'.ends (by decide)).2.1 hop'.ne_word.1
    | between ha' hb' hc' =>
      obtain ⟨rfl, -, rfl⟩ := ha.unique_text ha' (by decide) (by decide)
      obtain ⟨rfl, -, rfl⟩ := hb.unique_text hb' (by decide) (by decide)
      obtain ⟨rfl, rfl⟩ := hc.unique hc' hrest hrest'
      exact ⟨rfl, rfl⟩
    | oneOf ha' _ =>
      exact absurd (ha.unique_text ha' (by decide) (by decide)).2.1 (by decide)
    | call f hl _ => exact absurd hl (ha.ne_text f.name_ne.1 _)
  | oneOf ha hos =>
    cases h' with
    | compare hop' ha' _ =>
      exact absurd (ha'.unique_text ha hop'.ends (by decide)).2.1 hop'.ne_word.2
    | between ha' _ _ =>
      exact absurd (ha.unique_text ha' (by decide) (by decide)).2.1 (by decide)
    | oneOf ha' hos' =>
      obtain ⟨rfl, -, hk⟩ := ha.unique_text ha' (by decide) (by decide)
      cases hk
      obtain ⟨rfl, rfl⟩ := hos.unique hos'
      exact ⟨rfl, rfl⟩
    | call f hl _ => exact absurd hl (ha.ne_text f.name_ne.1 _)
  | call f hl hos =>
    cases h' with
    | compare _ ha' _ => exact absurd hl (ha'.ne_text f.name_ne.1 _)
    | between ha' _ _ => exact absurd hl (ha'.ne_text f.name_ne.1 _)
    | oneOf ha' _ => exact absurd hl (ha'.ne_text f.name_ne.1 _)
    | call f' hl' hos' =>
      simp only [hl, List.cons.injEq, Lexeme.text.injEq, true_and] at hl'
      obtain ⟨hf, rfl⟩ := hl'
      obtain rfl := TestFunction.name_injective hf
      obtain ⟨rfl, rfl⟩ := hos.unique hos'
      exact ⟨rfl, rfl⟩

/-- A test begins neither with `NOT` nor with a parenthesis. -/
theorem ReadsTest.ne_text {t : Test α} (h : ReadsTest l t rest) {s : String}
    (hs : s = "NOT" ∨ s = "(") (l' : List (Lexeme α)) : l ≠ .text s :: l' := by
  have hsize : s ≠ "size" := by
    rcases hs with rfl | rfl <;> decide
  cases h with
  | compare _ ha _ => exact ha.ne_text hsize l'
  | between ha _ _ => exact ha.ne_text hsize l'
  | oneOf ha _ => exact ha.ne_text hsize l'
  | call f hl _ =>
    rintro rfl
    simp only [List.cons.injEq, Lexeme.text.injEq] at hl
    rcases hs with rfl | rfl
    · exact f.name_ne.2.1 hl.1.symm
    · exact f.name_ne.2.2 hl.1.symm

/-- Whether lexemes do not go on with a condition of a rank in front of them. -/
def Rank.Follows : Rank → List (Lexeme α) → Prop
  | .factor, rest => PathEnds rest
  | .both, rest => PathEnds rest ∧ rest.head? ≠ some (.text "AND")
  | .either, rest =>
    (PathEnds rest ∧ rest.head? ≠ some (.text "AND")) ∧ rest.head? ≠ some (.text "OR")

/-- There is at most one way to read a condition. -/
theorem Reads.unique {k : Rank} {r r' : Reading α} (h : Reads k l r rest)
    (h' : Reads k l r' rest') (hrest : k.Follows rest) (hrest' : k.Follows rest') :
    r = r' ∧ rest = rest' := by
  induction h generalizing r' rest' with
  | test h =>
    cases h' with
    | test h' =>
      obtain ⟨rfl, rfl⟩ := h.unique h' hrest hrest'
      exact ⟨rfl, rfl⟩
    | parentheses hl _ => exact absurd hl (h.ne_text (.inr rfl) _)
    | not hl _ => exact absurd hl (h.ne_text (.inl rfl) _)
  | parentheses hl h ih =>
    cases h' with
    | test h' => exact absurd hl (h'.ne_text (.inr rfl) _)
    | parentheses hl' h' =>
      rw [hl] at hl'
      cases hl'
      obtain ⟨rfl, heq⟩ := ih h' (by simp [Rank.Follows, PathEnds])
        (by simp [Rank.Follows, PathEnds])
      cases heq
      exact ⟨rfl, rfl⟩
    | not hl' _ => simp [hl] at hl'
  | not hl h ih =>
    cases h' with
    | test h' => exact absurd hl (h'.ne_text (.inl rfl) _)
    | parentheses hl' _ => simp [hl] at hl'
    | not hl' h' =>
      rw [hl] at hl'
      cases hl'
      obtain ⟨rfl, rfl⟩ := ih h' hrest hrest'
      exact ⟨rfl, rfl⟩
  | factor h ih =>
    cases h' with
    | factor h' => exact ih h' hrest.1 hrest'.1
    | and h' _ =>
      obtain ⟨-, rfl⟩ := ih h' hrest.1 (pathEnds_text (by decide) _)
      exact absurd rfl hrest.2
  | and h _ ih ihrest =>
    cases h' with
    | factor h' =>
      obtain ⟨-, rfl⟩ := ih h' (pathEnds_text (by decide) _) hrest'.1
      exact absurd rfl hrest'.2
    | and h' hmore' =>
      obtain ⟨rfl, heq⟩ := ih h' (pathEnds_text (by decide) _) (pathEnds_text (by decide) _)
      cases heq
      obtain ⟨rfl, rfl⟩ := ihrest hmore' hrest hrest'
      exact ⟨rfl, rfl⟩
  | both h ih =>
    cases h' with
    | both h' => exact ih h' hrest.1 hrest'.1
    | or h' _ =>
      obtain ⟨-, rfl⟩ := ih h' hrest.1 (by simp [Rank.Follows, PathEnds])
      exact absurd rfl hrest.2
  | or h _ ih ihrest =>
    cases h' with
    | both h' =>
      obtain ⟨-, rfl⟩ := ih h' (by simp [Rank.Follows, PathEnds]) hrest'.1
      exact absurd rfl hrest'.2
    | or h' hmore' =>
      obtain ⟨rfl, heq⟩ := ih h' (by simp [Rank.Follows, PathEnds])
        (by simp [Rank.Follows, PathEnds])
      cases heq
      obtain ⟨rfl, rfl⟩ := ihrest hmore' hrest hrest'
      exact ⟨rfl, rfl⟩

end Unique

/-! ## Reading and renaming -/

section Transfer

variable {α β γ : Type} {f : β → γ} {g : α → γ} {l rest : List (Lexeme α)} {m : List (Lexeme β)}

/-- Whether lexemes are the same once their placeholders are replaced. -/
def Alike (f : β → γ) (g : α → γ) (m : List (Lexeme β)) (l : List (Lexeme α)) : Prop :=
  m.map (Lexeme.map f) = l.map (Lexeme.map g)

/-- Texts stand in the same places of lexemes that are alike. -/
theorem Alike.text {s : String} (h : Alike f g m (.text s :: l)) :
    ∃ m', m = .text s :: m' ∧ Alike f g m' l := by
  cases m with
  | nil => cases h
  | cons x m =>
    obtain ⟨hx, hm⟩ := List.cons_eq_cons.1 h
    cases x with
    | text s' => cases hx; exact ⟨m, rfl, hm⟩
    | placeholder b => cases hx

/-- Placeholders stand in the same places of lexemes that are alike, and for the same. -/
theorem Alike.placeholder {a : α} (h : Alike f g m (.placeholder a :: l)) :
    ∃ b m', m = .placeholder b :: m' ∧ f b = g a ∧ Alike f g m' l := by
  cases m with
  | nil => cases h
  | cons x m =>
    obtain ⟨hx, hm⟩ := List.cons_eq_cons.1 h
    cases x with
    | text s => cases hx
    | placeholder b => exact ⟨b, m, rfl, Lexeme.placeholder.inj hx, hm⟩

/-- Lexemes that are alike are read as steps that are alike. -/
theorem ReadsSteps.transfer {es : List (Step α)} (h : ReadsSteps l es rest)
    (hm : Alike f g m l) : ∃ es' rest', ReadsSteps m es' rest' ∧
      es'.map (Step.map f) = es.map (Step.map g) ∧ Alike f g rest' rest := by
  induction h generalizing m with
  | done rest => exact ⟨[], m, .done m, rfl, hm⟩
  | name hl _ ih =>
    rw [hl] at hm
    obtain ⟨m₁, rfl, hm₁⟩ := hm.text
    obtain ⟨b, m₂, rfl, hb, hm₂⟩ := hm₁.placeholder
    obtain ⟨es', k₃, hes, heq, hrest₃⟩ := ih hm₂
    refine ⟨.name b :: es', k₃, .name rfl hes, ?_, hrest₃⟩
    rw [List.map_cons, List.map_cons, heq, Step.map, Step.map, hb]
  | index hl _ ih =>
    rw [hl] at hm
    obtain ⟨m₁, rfl, hm₁⟩ := hm.text
    obtain ⟨m₂, rfl, hm₂⟩ := hm₁.text
    obtain ⟨m₃, rfl, hm₃⟩ := hm₂.text
    obtain ⟨es', k₄, hes, heq, hrest₄⟩ := ih hm₃
    refine ⟨.index _ :: es', k₄, .index rfl hes, ?_, hrest₄⟩
    rw [List.map_cons, List.map_cons, heq, Step.map, Step.map]

theorem ReadsPath.transfer {es : List (Step α)} (h : ReadsPath l es rest)
    (hm : Alike f g m l) : ∃ es' rest', ReadsPath m es' rest' ∧
      es'.map (Step.map f) = es.map (Step.map g) ∧ Alike f g rest' rest := by
  obtain ⟨hl, h⟩ := h
  rw [hl] at hm
  obtain ⟨b, m₁, rfl, hb, hm₁⟩ := hm.placeholder
  obtain ⟨es', k₂, hes, heq, hrest₂⟩ := h.transfer hm₁
  refine ⟨.name b :: es', k₂, .first rfl hes, ?_, hrest₂⟩
  rw [List.map_cons, List.map_cons, heq, Step.map, Step.map, hb]

theorem ReadsOperand.transfer {o : Operand α} (h : ReadsOperand l o rest)
    (hm : Alike f g m l) : ∃ o' rest', ReadsOperand m o' rest' ∧
      o'.map f = o.map g ∧ Alike f g rest' rest := by
  cases h with
  | path h =>
    obtain ⟨es', k₁, hes, heq, hrest₁⟩ := h.transfer hm
    exact ⟨.path es', k₁, .path hes, by rw [Operand.map, Operand.map, heq], hrest₁⟩
  | size hl h =>
    rw [hl] at hm
    obtain ⟨m₁, rfl, hm₁⟩ := hm.text
    obtain ⟨m₂, rfl, hm₂⟩ := hm₁.text
    obtain ⟨es', k₃, hes, heq, hrest₃⟩ := h.transfer hm₂
    obtain ⟨k₄, rfl, hrest₄⟩ := hrest₃.text
    exact ⟨.size es', k₄, .size rfl hes, by rw [Operand.map, Operand.map, heq], hrest₄⟩

theorem ReadsOperands.transfer {os : List (Operand α)} (h : ReadsOperands l os rest)
    (hm : Alike f g m l) : ∃ os' rest', ReadsOperands m os' rest' ∧
      os'.map (Operand.map f) = os.map (Operand.map g) ∧ Alike f g rest' rest := by
  induction h generalizing m with
  | last h =>
    obtain ⟨o', k₁, ho, heq, hrest₁⟩ := h.transfer hm
    obtain ⟨k₂, rfl, hrest₂⟩ := hrest₁.text
    exact ⟨[o'], k₂, .last ho, by rw [List.map_singleton, List.map_singleton, heq], hrest₂⟩
  | more h _ ih =>
    obtain ⟨o', k₁, ho, heq, hrest₁⟩ := h.transfer hm
    obtain ⟨m', rfl, hm'⟩ := hrest₁.text
    obtain ⟨os', k₂, hos, heq', hrest₂⟩ := ih hm'
    exact ⟨o' :: os', k₂, .more ho hos, by rw [List.map_cons, List.map_cons, heq, heq'], hrest₂⟩

/-- Lexemes that are alike are read as tests that are alike. -/
theorem ReadsTest.transfer {t : Test α} (h : ReadsTest l t rest) (hm : Alike f g m l) :
    ∃ t' rest', ReadsTest m t' rest' ∧ t'.map f = t.map g ∧ Alike f g rest' rest := by
  cases h with
  | compare hop ha hb =>
    obtain ⟨a', m₁, ha', heqa, hm₁⟩ := ha.transfer hm
    obtain ⟨m₂, rfl, hm₂⟩ := hm₁.text
    obtain ⟨b', k₃, hb', heqb, hrest₃⟩ := hb.transfer hm₂
    exact ⟨_, k₃, .compare hop ha' hb', by rw [Test.map, Test.map, heqa, heqb], hrest₃⟩
  | between ha hb hc =>
    obtain ⟨a', m₁, ha', heqa, hm₁⟩ := ha.transfer hm
    obtain ⟨m₂, rfl, hm₂⟩ := hm₁.text
    obtain ⟨b', m₃, hb', heqb, hm₃⟩ := hb.transfer hm₂
    obtain ⟨m₄, rfl, hm₄⟩ := hm₃.text
    obtain ⟨c', k₅, hc', heqc, hrest₅⟩ := hc.transfer hm₄
    exact ⟨_, k₅, .between ha' hb' hc', by rw [Test.map, Test.map, heqa, heqb, heqc], hrest₅⟩
  | oneOf ha hos =>
    obtain ⟨a', m₁, ha', heqa, hm₁⟩ := ha.transfer hm
    obtain ⟨m₂, rfl, hm₂⟩ := hm₁.text
    obtain ⟨m₃, rfl, hm₃⟩ := hm₂.text
    obtain ⟨os', k₄, hos', heqos, hrest₄⟩ := hos.transfer hm₃
    exact ⟨_, k₄, .oneOf ha' hos', by rw [Test.map, Test.map, heqa, heqos], hrest₄⟩
  | call function hl hos =>
    rw [hl] at hm
    obtain ⟨m₁, rfl, hm₁⟩ := hm.text
    obtain ⟨m₂, rfl, hm₂⟩ := hm₁.text
    obtain ⟨os', k₃, hos', heqos, hrest₃⟩ := hos.transfer hm₂
    exact ⟨_, k₃, .call function rfl hos', by rw [Test.map, Test.map, heqos], hrest₃⟩

/-- A condition is read in the same way whatever its placeholders are. -/
theorem Reads.transfer {k : Rank} {r : Reading α} (h : Reads k l r rest) (hm : Alike f g m l) :
    ∃ r' rest', Reads k m r' rest' ∧ r'.map f = r.map g ∧ Alike f g rest' rest := by
  induction h generalizing m with
  | test h =>
    obtain ⟨t', k₁, ht, heq, hrest₁⟩ := h.transfer hm
    exact ⟨.test t', k₁, .test ht, by rw [Reading.map, Reading.map, heq], hrest₁⟩
  | parentheses hl _ ih =>
    rw [hl] at hm
    obtain ⟨m₁, rfl, hm₁⟩ := hm.text
    obtain ⟨r', k₂, hr, heq, hrest₂⟩ := ih hm₁
    obtain ⟨k₃, rfl, hrest₃⟩ := hrest₂.text
    exact ⟨r', k₃, .parentheses rfl hr, heq, hrest₃⟩
  | not hl _ ih =>
    rw [hl] at hm
    obtain ⟨m₁, rfl, hm₁⟩ := hm.text
    obtain ⟨r', k₂, hr, heq, hrest₂⟩ := ih hm₁
    exact ⟨.not r', k₂, .not rfl hr, by rw [Reading.map, Reading.map, heq], hrest₂⟩
  | factor _ ih =>
    obtain ⟨r', k₁, hr, heq, hrest₁⟩ := ih hm
    exact ⟨r', k₁, .factor hr, heq, hrest₁⟩
  | and _ _ ih ihrest =>
    obtain ⟨r', m₁, hr, heq, hm₁⟩ := ih hm
    obtain ⟨m₂, rfl, hm₂⟩ := hm₁.text
    obtain ⟨s', k₃, hs, heq', hrest₃⟩ := ihrest hm₂
    exact ⟨.and r' s', k₃, .and hr hs, by rw [Reading.map, Reading.map, heq, heq'], hrest₃⟩
  | both _ ih =>
    obtain ⟨r', k₁, hr, heq, hrest₁⟩ := ih hm
    exact ⟨r', k₁, .both hr, heq, hrest₁⟩
  | or _ _ ih ihrest =>
    obtain ⟨r', m₁, hr, heq, hm₁⟩ := ih hm
    obtain ⟨m₂, rfl, hm₂⟩ := hm₁.text
    obtain ⟨s', k₃, hs, heq', hrest₃⟩ := ihrest hm₂
    exact ⟨.or r' s', k₃, .or hr hs, by rw [Reading.map, Reading.map, heq, heq'], hrest₃⟩

end Transfer

end ItemStore
