import ItemStore.Expression.Condition
import ItemStore.Proofs.Lists
import ItemStore.Proofs.Path.Grammar

/-!
# Which conditions make sense

`Condition.check` reads the paths of a condition and refuses trees that make no sense.  Here is what
it stands for, said without it: a condition is `Sound` when no conjunction, disjunction or choice in
it is empty and all of its paths can be read, and `ParsedAs` says that one tree is another one with
its paths read.

* `Condition.exists_check_iff`: the check passes exactly what is sound.
* `Condition.check_eq_ok_iff`: what it makes is the same tree with its paths read, and nothing else.
* `Condition.same_shape`: hence the two have the same paths and hold together, whatever tests hold.
-/

namespace ItemStore

/-! ## Paths -/

namespace Path

/-- Whether a path begins with the name of an attribute. -/
def Rooted (p : Path) : Prop := ∃ name rest, p.elements = .name name :: rest

theorem parse_rooted {text : String} {p : Path} (h : parse text = .ok p) : p.Rooted := by
  have hderives : Derives text.toList p.elements := scan_eq_ok_iff.1 (parse_eq_ok_iff.1 h)
  obtain ⟨name, _, es, -, -, hes⟩ := derives_iff.1 hderives
  exact ⟨name, es, hes⟩

end Path

/-! ## Sound conditions -/

/-- The path of a subject. -/
def Subject.pathOf {P : Type} : Subject P → P
  | .path p => p
  | .size p => p

/-- Whether a subject is another one with its path read. -/
def Subject.ParsedAs : Subject String → Subject Path → Prop
  | .path text, .path p => Path.parse text = .ok p
  | .size text, .size p => Path.parse text = .ok p
  | _, _ => False

namespace Condition

section Parts

variable {P : Type}

mutual

/-- Whether no conjunction, disjunction or choice is empty. -/
def Filled : Condition P → Prop
  | .all children => children ≠ [] ∧ FilledAll children
  | .any children => children ≠ [] ∧ FilledAll children
  | .not child => Filled child
  | .oneOf _ values => values ≠ []
  | _ => True

/-- Whether all of some conditions are. -/
def FilledAll : List (Condition P) → Prop
  | [] => True
  | c :: rest => Filled c ∧ FilledAll rest

end

mutual

/-- The paths of a condition, from left to right. -/
def paths : Condition P → List P
  | .all children => pathsAll children
  | .any children => pathsAll children
  | .not child => paths child
  | .compare subject _ _ => [subject.pathOf]
  | .between subject _ _ => [subject.pathOf]
  | .oneOf subject _ => [subject.pathOf]
  | .beginsWith path _ => [path]
  | .contains path _ => [path]
  | .present path => [path]
  | .absent path => [path]
  | .hasKind path _ => [path]

/-- The paths of conditions, from left to right. -/
def pathsAll : List (Condition P) → List P
  | [] => []
  | c :: rest => paths c ++ pathsAll rest

end

mutual

/-- How many tests are in a condition. -/
def leafCount : Condition P → Nat
  | .all children => leafCountAll children
  | .any children => leafCountAll children
  | .not child => leafCount child
  | _ => 1

/-- How many tests are in some conditions. -/
def leafCountAll : List (Condition P) → Nat
  | [] => 0
  | c :: rest => leafCount c + leafCountAll rest

end

mutual

/-- Whether a condition holds, if its tests hold as `v` says, counted from `i` on. -/
def holds (v : Nat → Bool) (i : Nat) : Condition P → Bool
  | .all children => holdsAll v i children
  | .any children => holdsAny v i children
  | .not child => !holds v i child
  | _ => v i

/-- Whether all of some conditions hold. -/
def holdsAll (v : Nat → Bool) (i : Nat) : List (Condition P) → Bool
  | [] => true
  | c :: rest => holds v i c && holdsAll v (i + leafCount c) rest

/-- Whether one of some conditions holds. -/
def holdsAny (v : Nat → Bool) (i : Nat) : List (Condition P) → Bool
  | [] => false
  | c :: rest => holds v i c || holdsAny v (i + leafCount c) rest

end

end Parts

/-- Whether a condition makes sense. -/
def Sound (c : Condition String) : Prop :=
  c.Filled ∧ ∀ text ∈ c.paths, ∃ p, Path.parse text = .ok p

mutual

/-- Whether a condition is another one with its paths read. -/
def ParsedAs : Condition String → Condition Path → Prop
  | .all children, .all children' => ParsedAllAs children children'
  | .any children, .any children' => ParsedAllAs children children'
  | .not child, .not child' => ParsedAs child child'
  | .compare subject op value, .compare subject' op' value' =>
    subject.ParsedAs subject' ∧ op = op' ∧ value = value'
  | .between subject low high, .between subject' low' high' =>
    subject.ParsedAs subject' ∧ low = low' ∧ high = high'
  | .oneOf subject values, .oneOf subject' values' =>
    subject.ParsedAs subject' ∧ values = values'
  | .beginsWith text value, .beginsWith p value' => Path.parse text = .ok p ∧ value = value'
  | .contains text value, .contains p value' => Path.parse text = .ok p ∧ value = value'
  | .present text, .present p => Path.parse text = .ok p
  | .absent text, .absent p => Path.parse text = .ok p
  | .hasKind text kind, .hasKind p kind' => Path.parse text = .ok p ∧ kind = kind'
  | _, _ => False

/-- Whether conditions are others with their paths read, one by one. -/
def ParsedAllAs : List (Condition String) → List (Condition Path) → Prop
  | [], [] => True
  | c :: rest, c' :: rest' => ParsedAs c c' ∧ ParsedAllAs rest rest'
  | _, _ => False

end

theorem check_all {children : List (Condition String)} (h : children ≠ []) :
    check (.all children) = do return .all (← checkAll children) := by
  cases children with
  | nil => exact absurd rfl h
  | cons c rest =>
    rw [check]
    simp

theorem check_any {children : List (Condition String)} (h : children ≠ []) :
    check (.any children) = do return .any (← checkAll children) := by
  cases children with
  | nil => exact absurd rfl h
  | cons c rest =>
    rw [check]
    simp

theorem check_oneOf {subject : Subject String} {values : List AttributeValue} (h : values ≠ []) :
    check (.oneOf subject values) = do return .oneOf (← checkSubject subject) values := by
  cases values with
  | nil => exact absurd rfl h
  | cons v values =>
    rw [check]
    simp

theorem parsedAs_of_checkSubject {s : Subject String} {s' : Subject Path}
    (h : checkSubject s = .ok s') : s.ParsedAs s' := by
  cases s with
  | path text =>
    obtain ⟨p, hp, h⟩ := bind_eq_ok.1 h
    cases h
    exact hp
  | size text =>
    obtain ⟨p, hp, h⟩ := bind_eq_ok.1 h
    cases h
    exact hp

mutual

/-- What passes the check has nothing empty in it and becomes the same tree with its paths read. -/
theorem filled_of_check : ∀ (c : Condition String) {c' : Condition Path}, c.check = .ok c' →
    c.Filled ∧ c.ParsedAs c'
  | .all children, c', h => by
    have hne : children ≠ [] := by
      rintro rfl
      rw [check] at h
      cases h
    rw [check_all hne] at h
    obtain ⟨cs', hcs, h⟩ := bind_eq_ok.1 h
    cases h
    obtain ⟨hfilled, hparsed⟩ := filledAll_of_check children hcs
    exact ⟨⟨hne, hfilled⟩, hparsed⟩
  | .any children, c', h => by
    have hne : children ≠ [] := by
      rintro rfl
      rw [check] at h
      cases h
    rw [check_any hne] at h
    obtain ⟨cs', hcs, h⟩ := bind_eq_ok.1 h
    cases h
    obtain ⟨hfilled, hparsed⟩ := filledAll_of_check children hcs
    exact ⟨⟨hne, hfilled⟩, hparsed⟩
  | .not child, c', h => by
    rw [check] at h
    obtain ⟨child', hchild, h⟩ := bind_eq_ok.1 h
    cases h
    exact filled_of_check child hchild
  | .compare subject op value, c', h => by
    rw [check] at h
    obtain ⟨s', hs, h⟩ := bind_eq_ok.1 h
    cases h
    exact ⟨trivial, parsedAs_of_checkSubject hs, rfl, rfl⟩
  | .between subject low high, c', h => by
    rw [check] at h
    obtain ⟨s', hs, h⟩ := bind_eq_ok.1 h
    cases h
    exact ⟨trivial, parsedAs_of_checkSubject hs, rfl, rfl⟩
  | .oneOf subject values, c', h => by
    have hne : values ≠ [] := by
      rintro rfl
      rw [check] at h
      cases h
    rw [check_oneOf hne] at h
    obtain ⟨s', hs, h⟩ := bind_eq_ok.1 h
    cases h
    exact ⟨hne, parsedAs_of_checkSubject hs, rfl⟩
  | .beginsWith text value, c', h => by
    rw [check] at h
    obtain ⟨p, hp, h⟩ := bind_eq_ok.1 h
    cases h
    exact ⟨trivial, hp, rfl⟩
  | .contains text value, c', h => by
    rw [check] at h
    obtain ⟨p, hp, h⟩ := bind_eq_ok.1 h
    cases h
    exact ⟨trivial, hp, rfl⟩
  | .present text, c', h => by
    rw [check] at h
    obtain ⟨p, hp, h⟩ := bind_eq_ok.1 h
    cases h
    exact ⟨trivial, hp⟩
  | .absent text, c', h => by
    rw [check] at h
    obtain ⟨p, hp, h⟩ := bind_eq_ok.1 h
    cases h
    exact ⟨trivial, hp⟩
  | .hasKind text kind, c', h => by
    rw [check] at h
    obtain ⟨p, hp, h⟩ := bind_eq_ok.1 h
    cases h
    exact ⟨trivial, hp, rfl⟩

theorem filledAll_of_check : ∀ (cs : List (Condition String)) {cs' : List (Condition Path)},
    checkAll cs = .ok cs' → FilledAll cs ∧ ParsedAllAs cs cs'
  | [], cs', h => by
    rw [checkAll] at h
    cases h
    exact ⟨trivial, trivial⟩
  | c :: rest, cs', h => by
    rw [checkAll] at h
    obtain ⟨c', hc, h⟩ := bind_eq_ok.1 h
    obtain ⟨rest', hrest, h⟩ := bind_eq_ok.1 h
    cases h
    obtain ⟨hfilled, hparsed⟩ := filled_of_check c hc
    obtain ⟨hfilled', hparsed'⟩ := filledAll_of_check rest hrest
    exact ⟨⟨hfilled, hfilled'⟩, hparsed, hparsed'⟩

end

theorem exists_checkSubject {s : Subject String} {p : Path} (h : Path.parse s.pathOf = .ok p) :
    ∃ s', checkSubject s = .ok s' := by
  cases s with
  | path text => exact ⟨.path p, bind_eq_ok.2 ⟨p, h, rfl⟩⟩
  | size text => exact ⟨.size p, bind_eq_ok.2 ⟨p, h, rfl⟩⟩

mutual

/-- What makes sense passes the check. -/
theorem exists_check : ∀ c : Condition String, c.Filled →
    (∀ text ∈ c.paths, ∃ p, Path.parse text = .ok p) → ∃ c', c.check = .ok c'
  | .all children, hfilled, hpaths => by
    obtain ⟨cs', hcs⟩ := exists_checkAll children hfilled.2 hpaths
    exact ⟨.all cs', by rw [check_all hfilled.1, hcs]; rfl⟩
  | .any children, hfilled, hpaths => by
    obtain ⟨cs', hcs⟩ := exists_checkAll children hfilled.2 hpaths
    exact ⟨.any cs', by rw [check_any hfilled.1, hcs]; rfl⟩
  | .not child, hfilled, hpaths => by
    obtain ⟨c', hc⟩ := exists_check child hfilled hpaths
    exact ⟨.not c', by rw [check, hc]; rfl⟩
  | .compare subject op value, _, hpaths => by
    obtain ⟨p, hp⟩ := hpaths _ (List.mem_cons_self ..)
    obtain ⟨s', hs⟩ := exists_checkSubject hp
    exact ⟨.compare s' op value, by rw [check, hs]; rfl⟩
  | .between subject low high, _, hpaths => by
    obtain ⟨p, hp⟩ := hpaths _ (List.mem_cons_self ..)
    obtain ⟨s', hs⟩ := exists_checkSubject hp
    exact ⟨.between s' low high, by rw [check, hs]; rfl⟩
  | .oneOf subject values, hfilled, hpaths => by
    obtain ⟨p, hp⟩ := hpaths _ (List.mem_cons_self ..)
    obtain ⟨s', hs⟩ := exists_checkSubject hp
    exact ⟨.oneOf s' values, by rw [check_oneOf hfilled, hs]; rfl⟩
  | .beginsWith text value, _, hpaths => by
    obtain ⟨p, hp⟩ := hpaths _ (List.mem_cons_self ..)
    exact ⟨.beginsWith p value, by rw [check, hp]; rfl⟩
  | .contains text value, _, hpaths => by
    obtain ⟨p, hp⟩ := hpaths _ (List.mem_cons_self ..)
    exact ⟨.contains p value, by rw [check, hp]; rfl⟩
  | .present text, _, hpaths => by
    obtain ⟨p, hp⟩ := hpaths _ (List.mem_cons_self ..)
    exact ⟨.present p, by rw [check, hp]; rfl⟩
  | .absent text, _, hpaths => by
    obtain ⟨p, hp⟩ := hpaths _ (List.mem_cons_self ..)
    exact ⟨.absent p, by rw [check, hp]; rfl⟩
  | .hasKind text kind, _, hpaths => by
    obtain ⟨p, hp⟩ := hpaths _ (List.mem_cons_self ..)
    exact ⟨.hasKind p kind, by rw [check, hp]; rfl⟩

theorem exists_checkAll : ∀ cs : List (Condition String), FilledAll cs →
    (∀ text ∈ pathsAll cs, ∃ p, Path.parse text = .ok p) → ∃ cs', checkAll cs = .ok cs'
  | [], _, _ => ⟨[], by rw [checkAll]; rfl⟩
  | c :: rest, hfilled, hpaths => by
    obtain ⟨c', hc⟩ := exists_check c hfilled.1 fun text ht =>
      hpaths text (List.mem_append_left _ ht)
    obtain ⟨rest', hrest⟩ := exists_checkAll rest hfilled.2 fun text ht =>
      hpaths text (List.mem_append_right _ ht)
    exact ⟨c' :: rest', by rw [checkAll, hc, hrest]; rfl⟩

end

theorem checkSubject_of_parsedAs {s : Subject String} {s' : Subject Path} (h : s.ParsedAs s') :
    checkSubject s = .ok s' := by
  cases s with
  | path text =>
    cases s' with
    | path p => exact bind_eq_ok.2 ⟨p, h, rfl⟩
    | size p => exact h.elim
  | size text =>
    cases s' with
    | size p => exact bind_eq_ok.2 ⟨p, h, rfl⟩
    | path p => exact h.elim

mutual

/-- The tree with its paths read is what the check makes, of a tree without anything empty. -/
theorem check_of_parsedAs : ∀ (c : Condition String) {c' : Condition Path}, c.Filled →
    c.ParsedAs c' → c.check = .ok c'
  | .all children, c', hfilled, h => by
    cases c' with
    | all children' =>
      rw [check_all hfilled.1, checkAll_of_parsedAs children hfilled.2 h]
      rfl
    | _ => exact h.elim
  | .any children, c', hfilled, h => by
    cases c' with
    | any children' =>
      rw [check_any hfilled.1, checkAll_of_parsedAs children hfilled.2 h]
      rfl
    | _ => exact h.elim
  | .not child, c', hfilled, h => by
    cases c' with
    | not child' =>
      rw [check, check_of_parsedAs child hfilled h]
      rfl
    | _ => exact h.elim
  | .compare subject op value, c', _, h => by
    cases c' with
    | compare subject' op' value' =>
      obtain ⟨hsubject, rfl, rfl⟩ := h
      rw [check, checkSubject_of_parsedAs hsubject]
      rfl
    | _ => exact h.elim
  | .between subject low high, c', _, h => by
    cases c' with
    | between subject' low' high' =>
      obtain ⟨hsubject, rfl, rfl⟩ := h
      rw [check, checkSubject_of_parsedAs hsubject]
      rfl
    | _ => exact h.elim
  | .oneOf subject values, c', hfilled, h => by
    cases c' with
    | oneOf subject' values' =>
      obtain ⟨hsubject, rfl⟩ := h
      rw [check_oneOf hfilled, checkSubject_of_parsedAs hsubject]
      rfl
    | _ => exact h.elim
  | .beginsWith text value, c', _, h => by
    cases c' with
    | beginsWith p value' =>
      obtain ⟨hp, rfl⟩ := h
      rw [check, hp]
      rfl
    | _ => exact h.elim
  | .contains text value, c', _, h => by
    cases c' with
    | contains p value' =>
      obtain ⟨hp, rfl⟩ := h
      rw [check, hp]
      rfl
    | _ => exact h.elim
  | .present text, c', _, h => by
    cases c' with
    | present p =>
      have hp : Path.parse text = .ok p := h
      rw [check, hp]
      rfl
    | _ => exact h.elim
  | .absent text, c', _, h => by
    cases c' with
    | absent p =>
      have hp : Path.parse text = .ok p := h
      rw [check, hp]
      rfl
    | _ => exact h.elim
  | .hasKind text kind, c', _, h => by
    cases c' with
    | hasKind p kind' =>
      obtain ⟨hp, rfl⟩ := h
      rw [check, hp]
      rfl
    | _ => exact h.elim

theorem checkAll_of_parsedAs : ∀ (cs : List (Condition String)) {cs' : List (Condition Path)},
    FilledAll cs → ParsedAllAs cs cs' → checkAll cs = .ok cs'
  | [], cs', _, h => by
    cases cs' with
    | nil =>
      rw [checkAll]
      rfl
    | cons c' rest' => exact h.elim
  | c :: rest, cs', hfilled, h => by
    cases cs' with
    | nil => exact h.elim
    | cons c' rest' =>
      rw [checkAll, check_of_parsedAs c hfilled.1 h.1, checkAll_of_parsedAs rest hfilled.2 h.2]
      rfl

end

/-- A check makes of a condition the same tree with its paths read, if nothing in it is empty. -/
theorem check_eq_ok_iff {c : Condition String} {c' : Condition Path} :
    c.check = .ok c' ↔ c.Filled ∧ c.ParsedAs c' :=
  ⟨filled_of_check c, fun h => check_of_parsedAs c h.1 h.2⟩

/-! ## Trees with their paths read -/

theorem parse_pathOf {s : Subject String} {s' : Subject Path} (h : s.ParsedAs s') :
    Path.parse s.pathOf = .ok s'.pathOf := by
  cases s <;> cases s' <;> first | exact h | cases h

mutual

/-- A tree with its paths read has the paths that are read, the same choices and the same shape. -/
theorem same_shape : ∀ (c : Condition String) {c' : Condition Path}, c.ParsedAs c' →
    List.Forall₂ (fun text p => Path.parse text = .ok p) c.paths c'.paths ∧
      (c.Filled ↔ c'.Filled) ∧ c.leafCount = c'.leafCount ∧
        ∀ v i, c.holds v i = c'.holds v i
  | .all children, c', h => by
    cases c' with
    | all children' =>
      obtain ⟨hpaths, ⟨hnil, hfilled⟩, hcount, hholds⟩ := same_shapeAll children h
      exact ⟨hpaths, and_congr (not_congr hnil) hfilled, hcount, fun v i => (hholds v i).1⟩
    | _ => exact h.elim
  | .any children, c', h => by
    cases c' with
    | any children' =>
      obtain ⟨hpaths, ⟨hnil, hfilled⟩, hcount, hholds⟩ := same_shapeAll children h
      exact ⟨hpaths, and_congr (not_congr hnil) hfilled, hcount, fun v i => (hholds v i).2⟩
    | _ => exact h.elim
  | .not child, c', h => by
    cases c' with
    | not child' =>
      obtain ⟨hpaths, hfilled, hcount, hholds⟩ := same_shape child h
      exact ⟨hpaths, hfilled, hcount, fun v i => congrArg Bool.not (hholds v i)⟩
    | _ => exact h.elim
  | .compare subject op value, c', h => by
    cases c' with
    | compare subject op value =>
      exact ⟨.cons (parse_pathOf h.1) .nil, Iff.rfl, rfl, fun _ _ => rfl⟩
    | _ => exact h.elim
  | .between subject low high, c', h => by
    cases c' with
    | between subject low high =>
      exact ⟨.cons (parse_pathOf h.1) .nil, Iff.rfl, rfl, fun _ _ => rfl⟩
    | _ => exact h.elim
  | .oneOf subject values, c', h => by
    cases c' with
    | oneOf subject' values' =>
      refine ⟨.cons (parse_pathOf h.1) .nil, ?_, rfl, fun _ _ => rfl⟩
      obtain ⟨-, rfl⟩ := h
      exact Iff.rfl
    | _ => exact h.elim
  | .beginsWith text value, c', h => by
    cases c' with
    | beginsWith p value => exact ⟨.cons h.1 .nil, Iff.rfl, rfl, fun _ _ => rfl⟩
    | _ => exact h.elim
  | .contains text value, c', h => by
    cases c' with
    | contains p value => exact ⟨.cons h.1 .nil, Iff.rfl, rfl, fun _ _ => rfl⟩
    | _ => exact h.elim
  | .present text, c', h => by
    cases c' with
    | present p => exact ⟨.cons h .nil, Iff.rfl, rfl, fun _ _ => rfl⟩
    | _ => exact h.elim
  | .absent text, c', h => by
    cases c' with
    | absent p => exact ⟨.cons h .nil, Iff.rfl, rfl, fun _ _ => rfl⟩
    | _ => exact h.elim
  | .hasKind text kind, c', h => by
    cases c' with
    | hasKind p kind => exact ⟨.cons h.1 .nil, Iff.rfl, rfl, fun _ _ => rfl⟩
    | _ => exact h.elim

theorem same_shapeAll : ∀ (cs : List (Condition String)) {cs' : List (Condition Path)},
    ParsedAllAs cs cs' →
    List.Forall₂ (fun text p => Path.parse text = .ok p) (pathsAll cs) (pathsAll cs') ∧
      ((cs = [] ↔ cs' = []) ∧ (FilledAll cs ↔ FilledAll cs')) ∧
      leafCountAll cs = leafCountAll cs' ∧
        ∀ v i, holdsAll v i cs = holdsAll v i cs' ∧ holdsAny v i cs = holdsAny v i cs'
  | [], cs', h => by
    cases cs' with
    | nil => exact ⟨.nil, ⟨by simp, Iff.rfl⟩, rfl, fun _ _ => ⟨rfl, rfl⟩⟩
    | cons c' rest' => exact h.elim
  | c :: rest, cs', h => by
    cases cs' with
    | nil => exact h.elim
    | cons c' rest' =>
      obtain ⟨hpaths, hfilled, hcount, hholds⟩ := same_shape c h.1
      obtain ⟨hpaths', ⟨-, hfilled'⟩, hcount', hholds'⟩ := same_shapeAll rest h.2
      refine ⟨List.rel_append hpaths hpaths', ⟨by simp, and_congr hfilled hfilled'⟩, ?_, ?_⟩
      · rw [leafCountAll, leafCountAll, hcount, hcount']
      · intro v i
        rw [holdsAll, holdsAny, holdsAll, holdsAny, hcount, hholds, (hholds' v _).1,
          (hholds' v _).2]
        exact ⟨rfl, rfl⟩

end

/-- A check passes exactly the conditions that make sense. -/
theorem exists_check_iff {c : Condition String} : (∃ c', c.check = .ok c') ↔ c.Sound := by
  constructor
  · rintro ⟨c', hc⟩
    obtain ⟨hfilled, hparsed⟩ := filled_of_check c hc
    refine ⟨hfilled, fun text ht => ?_⟩
    obtain ⟨p, -, hp⟩ := exists_of_mem_left (same_shape c hparsed).1 ht
    exact ⟨p, hp⟩
  · rintro ⟨hfilled, hpaths⟩
    exact exists_check c hfilled hpaths

/-- Every path of a condition that was checked begins with a name. -/
theorem rooted_of_parsedAs {c : Condition String} {c' : Condition Path} (h : c.ParsedAs c') :
    ∀ p ∈ c'.paths, p.Rooted := by
  intro p hp
  obtain ⟨text, -, htext⟩ := exists_of_mem_left (same_shape c h).1.flip hp
  exact Path.parse_rooted htext

end Condition

end ItemStore
