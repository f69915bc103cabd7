import ItemStore.Path.Parser
import ItemStore.Proofs.Lists

/-!
# The grammar of paths

What a path may look like, said without the machine that reads it.  A path is a name with indexes
behind it, and further names with their indexes, a point before each of them:

    path  ::= name index* ('.' name index*)*
    index ::= '[' digit+ ']'                    its value fits a word of 64 bits
    name  ::= unit+
    unit  ::= a character other than '.', '[' and '\'
            | '\' and any character
            | '\'                               at the end of the text

Each rule is a relation between a text, what its front is read as, and the text behind that front:
a rule that holds only at the end of the text says so by leaving nothing behind.

* `Derives`: the steps that a whole text is derived with.
* `Moves`: everything that one character can do, each way with what it asks of the character.
* `Accepts`: what a reader may still meet from a state on.  One character keeps it
  (`Accepts.of_moves`), and so it holds of everything that a reader accepts (`accepts_of_scan`).
* `scan_eq_ok_iff`: a reader takes a text as some steps exactly if they are derived from it.
-/

namespace ItemStore

namespace Path

/-! ## The rules -/

/-- A character that has a meaning of its own in a path. -/
def Reserved (c : Char) : Prop := c = '.' ∨ c = '[' ∨ c = '\\'

/-- Units of a name, with the characters that they stand for. -/
inductive Units : List Char → List Char → List Char → Prop where
  /-- No further unit. -/
  | nil {rest} : Units rest [] rest
  /-- A character that stands for itself. -/
  | plain {c text name rest} : ¬ Reserved c → Units text name rest →
      Units (c :: text) (c :: name) rest
  /-- A backslash that takes the meaning from the character after it. -/
  | escaped {c text name rest} : Reserved c → Units text name rest →
      Units ('\\' :: c :: text) (c :: name) rest
  /-- A backslash that stands for itself before a character without a meaning. -/
  | kept {c text name rest} : ¬ Reserved c → Units text name rest →
      Units ('\\' :: c :: text) ('\\' :: c :: name) rest
  /-- A backslash that stands for itself at the end of the text. -/
  | last : Units ['\\'] ['\\'] []

/-- A name: one unit or more. -/
inductive Name : List Char → String → List Char → Prop where
  | mk {text name rest} : Units text name rest → name ≠ [] → Name text (String.ofList name) rest

/-- An index: decimal digits between brackets, the value of which fits a word. -/
inductive Index : List Char → Nat → List Char → Prop where
  | mk {digits rest} : digits ≠ [] → (∀ d ∈ digits, d.isDigit = true) →
      Nat.ofDigitChars 10 digits 0 < twoTo 64 →
      Index ('[' :: (digits ++ ']' :: rest)) (Nat.ofDigitChars 10 digits 0) rest

/-- Any number of indexes. -/
inductive Indexes : List Char → List Nat → List Char → Prop where
  | nil {rest} : Indexes rest [] rest
  | cons {text n more ns rest} : Index text n more → Indexes more ns rest →
      Indexes text (n :: ns) rest

/-- A whole text as a path, with its steps. -/
inductive Derives : List Char → List PathElement → Prop where
  /-- One name with its indexes. -/
  | last {text name more ns} : Name text name more → Indexes more ns [] →
      Derives text (.name name :: ns.map .index)
  /-- A name with its indexes, and a path after a point. -/
  | point {text name more ns rest es} : Name text name more → Indexes more ns ('.' :: rest) →
      Derives rest es → Derives text (.name name :: (ns.map .index ++ es))

/-- What may stand behind a name: indexes, and then nothing or a point and a path. -/
def Continues (text : List Char) (es : List PathElement) : Prop :=
  ∃ ns rest, Indexes text ns rest ∧
    (rest = [] ∧ es = ns.map .index ∨
      ∃ more es', rest = '.' :: more ∧ Derives more es' ∧ es = ns.map .index ++ es')

/-- A path may end behind a name. -/
theorem Continues.nil : Continues [] [] := ⟨[], [], .nil, .inl ⟨rfl, rfl⟩⟩

theorem Continues.point {text : List Char} {es : List PathElement} (h : Derives text es) :
    Continues ('.' :: text) es :=
  ⟨[], '.' :: text, .nil, .inr ⟨text, es, rfl, h, rfl⟩⟩

theorem Continues.index {text more : List Char} {n : Nat} {es : List PathElement}
    (hn : Index text n more) (h : Continues more es) : Continues text (.index n :: es) := by
  obtain ⟨ns, rest, hns, h⟩ := h
  refine ⟨n :: ns, rest, .cons hn hns, ?_⟩
  rcases h with ⟨hrest, hes⟩ | ⟨more', es', hrest, hes', hes⟩
  · exact .inl ⟨hrest, by rw [hes]; rfl⟩
  · exact .inr ⟨more', es', hrest, hes', by rw [hes]; rfl⟩

/-- A path is a name and what may stand behind one. -/
theorem derives_iff {text : List Char} {es : List PathElement} :
    Derives text es ↔ ∃ name more es', Name text name more ∧ Continues more es' ∧
      es = .name name :: es' := by
  constructor
  · intro h
    cases h with
    | last hname hns => exact ⟨_, _, _, hname, ⟨_, _, hns, .inl ⟨rfl, rfl⟩⟩, rfl⟩
    | point hname hns hrest =>
      exact ⟨_, _, _, hname, ⟨_, _, hns, .inr ⟨_, _, rfl, hrest, rfl⟩⟩, rfl⟩
  · rintro ⟨name, more, es', hname, ⟨ns, rest, hns, h⟩, rfl⟩
    rcases h with ⟨rfl, rfl⟩ | ⟨more', es'', rfl, hes, rfl⟩
    · exact .last hname hns
    · exact .point hname hns hes

/-! ## One character -/

theorem isSpecial_iff {c : Char} : isSpecial c = true ↔ Reserved c := by
  simp [isSpecial, Reserved, or_assoc]

theorem isSpecial_eq_false {c : Char} (h : ¬ Reserved c) : isSpecial c = false := by
  rw [Bool.eq_false_iff]
  exact fun hc => h (isSpecial_iff.1 hc)

theorem isDecimalDigit_eq (c : Char) : isDecimalDigit c = c.isDigit := rfl

/-- An index is taken exactly if it has digits and its value fits a word. -/
theorem closeIndex_eq_ok {read : List Char} {e : PathElement} :
    closeIndex read = .ok e ↔ read ≠ [] ∧ Nat.ofDigitChars 10 read.reverse 0 < twoTo 64 ∧
      e = .index (Nat.ofDigitChars 10 read.reverse 0) := by
  have hvalue : digitsValue read.reverse = Nat.ofDigitChars 10 read.reverse 0 := rfl
  unfold closeIndex
  by_cases hread : read = []
  · simp [hread]
  · by_cases hlt : Nat.ofDigitChars 10 read.reverse 0 < twoTo 64
    · rw [if_neg (by simpa using hread), hvalue]
      simp only [if_pos hlt, Except.ok.injEq]
      constructor
      · intro he
        exact ⟨hread, hlt, he.symm⟩
      · rintro ⟨-, -, he⟩
        exact he.symm
    · simp [hread, hvalue, hlt]

/-- What a character does in a state: the step that it completes, if any, and the state after it. -/
inductive Moves : PathState → Char → Option PathElement → PathState → Prop where
  /-- A backslash in a name waits for the character after it. -/
  | backslash {read} : Moves (.inName read) '\\' none (.afterBackslash read)
  /-- A point ends a name, which has characters. -/
  | point {read} : read ≠ [] → Moves (.inName read) '.' (some (nameOf read)) (.inName [])
  /-- A bracket ends a name, which has characters. -/
  | bracket {read} : read ≠ [] → Moves (.inName read) '[' (some (nameOf read)) (.inIndex [])
  /-- Any other character belongs to the name. -/
  | plain {read c} : ¬ Reserved c → Moves (.inName read) c none (.inName (c :: read))
  /-- Behind a backslash a reserved character belongs to the name. -/
  | escaped {read c} : Reserved c → Moves (.afterBackslash read) c none (.inName (c :: read))
  /-- Any other character belongs to it together with the backslash. -/
  | kept {read c} : ¬ Reserved c →
      Moves (.afterBackslash read) c none (.inName (c :: '\\' :: read))
  /-- A bracket ends an index that fits a word. -/
  | close {read} : read ≠ [] → Nat.ofDigitChars 10 read.reverse 0 < twoTo 64 →
      Moves (.inIndex read) ']' (some (.index (Nat.ofDigitChars 10 read.reverse 0))) .afterIndex
  /-- Digits belong to an index. -/
  | digit {read c} : c.isDigit = true → Moves (.inIndex read) c none (.inIndex (c :: read))
  /-- A point after an index begins a name. -/
  | name : Moves .afterIndex '.' none (.inName [])
  /-- A bracket after an index begins another one. -/
  | index : Moves .afterIndex '[' none (.inIndex [])

section Step

variable {state next : PathState} {c : Char} {done : Option PathElement} {read : List Char}

/-- The reader makes every move that a character has. -/
theorem Moves.step_eq (h : Moves state c done next) : step state c = .ok (done, next) := by
  cases h with
  | backslash => simp [step]
  | point hread => simp [step, hread]
  | bracket hread => simp [step, hread]
  | plain hc =>
    obtain ⟨hpoint, hbracket, hbackslash⟩ : c ≠ '.' ∧ c ≠ '[' ∧ c ≠ '\\' := by
      simpa [Reserved] using hc
    simp [step, hpoint, hbracket, hbackslash]
  | escaped hc => simp [step, isSpecial_iff.2 hc]
  | kept hc => simp [step, isSpecial_eq_false hc]
  | close hread hlt =>
    simp only [step, if_pos, closeIndex_eq_ok.2 ⟨hread, hlt, rfl⟩]
    rfl
  | digit hc =>
    have hne : c ≠ ']' := by
      rintro rfl
      cases hc
    simp [step, hne, isDecimalDigit_eq, hc]
  | name => simp [step]
  | index => simp [step]

theorem moves_of_step_inName (h : step (.inName read) c = .ok (done, next)) :
    Moves (.inName read) c done next := by
  simp only [step] at h
  by_cases hbackslash : c = '\\'
  · rw [if_pos hbackslash] at h
    cases h
    subst hbackslash
    exact .backslash
  rw [if_neg hbackslash] at h
  by_cases hpoint : c = '.'
  · rw [if_pos hpoint] at h
    by_cases hread : read = []
    · simp [hread] at h
    rw [if_neg (by simpa using hread)] at h
    cases h
    subst hpoint
    exact .point hread
  rw [if_neg hpoint] at h
  by_cases hbracket : c = '['
  · rw [if_pos hbracket] at h
    by_cases hread : read = []
    · simp [hread] at h
    rw [if_neg (by simpa using hread)] at h
    cases h
    subst hbracket
    exact .bracket hread
  rw [if_neg hbracket] at h
  cases h
  exact .plain (by simp [Reserved, hpoint, hbracket, hbackslash])

theorem moves_of_step_inIndex (h : step (.inIndex read) c = .ok (done, next)) :
    Moves (.inIndex read) c done next := by
  simp only [step] at h
  by_cases hclose : c = ']'
  · rw [if_pos hclose] at h
    obtain ⟨e, he, h⟩ := bind_eq_ok.1 h
    cases h
    obtain ⟨hread, hlt, rfl⟩ := closeIndex_eq_ok.1 he
    subst hclose
    exact .close hread hlt
  rw [if_neg hclose] at h
  by_cases hdigit : isDecimalDigit c = true
  · rw [if_pos hdigit] at h
    cases h
    exact .digit hdigit
  · rw [if_neg hdigit] at h
    cases h

/-- A character does one of these things, or the text is refused. -/
theorem step_eq_ok_iff : step state c = .ok (done, next) ↔ Moves state c done next := by
  refine ⟨fun h => ?_, Moves.step_eq⟩
  cases state with
  | inName read => exact moves_of_step_inName h
  | afterBackslash read =>
    cases h
    by_cases hc : Reserved c
    · rw [if_pos (isSpecial_iff.2 hc)]
      exact .escaped hc
    · rw [isSpecial_eq_false hc]
      exact .kept hc
  | inIndex read => exact moves_of_step_inIndex h
  | afterIndex =>
    simp only [step] at h
    by_cases hpoint : c = '.'
    · rw [if_pos hpoint] at h
      cases h
      subst hpoint
      exact .name
    rw [if_neg hpoint] at h
    by_cases hbracket : c = '['
    · rw [if_pos hbracket] at h
      cases h
      subst hbracket
      exact .index
    · rw [if_neg hbracket] at h
      cases h

variable {cs : List Char}

/-- A move that completes nothing leaves the reading to the state after it. -/
theorem Moves.scan_eq (h : Moves state c none next) : scan state (c :: cs) = scan next cs := by
  rw [scan, h.step_eq]
  show (scan next cs >>= fun more => .ok ([] ++ more)) = scan next cs
  cases scan next cs <;> rfl

/-- A move that completes a step puts it in front of what is read after it. -/
theorem Moves.scan_eq_map {e : PathElement} (h : Moves state c (some e) next) :
    scan state (c :: cs) = (scan next cs).map (e :: ·) := by
  rw [scan, h.step_eq]
  show (scan next cs >>= fun more => .ok ([e] ++ more)) = (scan next cs).map (e :: ·)
  cases scan next cs <;> rfl

end Step

/-! ## Reading what is derived -/

/-- Units add the characters that they stand for to what was read of a name. -/
theorem scan_units {text name rest : List Char} (h : Units text name rest) (read : List Char) :
    scan (.inName read) text = scan (.inName (name.reverse ++ read)) rest := by
  induction h generalizing read with
  | nil => rfl
  | plain hc _ ih =>
    rw [(Moves.plain hc).scan_eq, ih, List.reverse_cons, List.append_assoc]
    rfl
  | escaped hc _ ih =>
    rw [Moves.backslash.scan_eq, (Moves.escaped hc).scan_eq, ih, List.reverse_cons,
      List.append_assoc]
    rfl
  | kept hc _ ih =>
    rw [Moves.backslash.scan_eq, (Moves.kept hc).scan_eq, ih]
    simp
  | last =>
    rw [Moves.backslash.scan_eq]
    rfl

theorem scan_digits {digits : List Char} (h : ∀ d ∈ digits, d.isDigit = true)
    (read rest : List Char) :
    scan (.inIndex read) (digits ++ rest) = scan (.inIndex (digits.reverse ++ read)) rest := by
  induction digits generalizing read with
  | nil => rfl
  | cons d digits ih =>
    obtain ⟨hd, hdigits⟩ := List.forall_mem_cons.1 h
    rw [List.cons_append, (Moves.digit hd).scan_eq, ih hdigits, List.reverse_cons,
      List.append_assoc]
    rfl

theorem scan_index {text rest : List Char} {n : Nat} (h : Index text n rest) :
    scan .afterIndex text = (scan .afterIndex rest).map (.index n :: ·) := by
  obtain ⟨hne, hdigits, hlt⟩ := h
  rename_i digits
  have hclose : Moves (.inIndex digits.reverse) ']' _ .afterIndex :=
    .close (by simpa using hne) (by simpa using hlt)
  rw [List.reverse_reverse] at hclose
  rw [Moves.index.scan_eq, scan_digits hdigits, List.append_nil, hclose.scan_eq_map]

theorem scan_indexes {text rest : List Char} {ns : List Nat} (h : Indexes text ns rest) :
    scan .afterIndex text = (scan .afterIndex rest).map (ns.map PathElement.index ++ ·) := by
  induction h with
  | nil => cases scan .afterIndex _ <;> rfl
  | cons hn _ ih =>
    rw [scan_index hn, ih]
    cases scan .afterIndex _ <;> rfl

/-- Where a name ends, it is read as if an index had just ended, except that the name counts. -/
theorem scan_close {read text : List Char} (hread : read ≠ [])
    (htext : text = [] ∨ ∃ c rest, text = c :: rest ∧ (c = '.' ∨ c = '[')) :
    scan (.inName read) text = (scan .afterIndex text).map (nameOf read :: ·) := by
  rcases htext with rfl | ⟨c, rest, rfl, rfl | rfl⟩
  · simp [scan, finish, hread, Except.map]
  · rw [(Moves.point hread).scan_eq_map, Moves.name.scan_eq]
  · rw [(Moves.bracket hread).scan_eq_map, Moves.index.scan_eq]

/-- What begins with indexes, or has nothing or a point behind none, ends a name. -/
theorem Indexes.front {text rest : List Char} {ns : List Nat} (h : Indexes text ns rest)
    (hrest : rest = [] ∨ ∃ more, rest = '.' :: more) :
    text = [] ∨ ∃ c more, text = c :: more ∧ (c = '.' ∨ c = '[') := by
  cases h with
  | nil =>
    rcases hrest with rfl | ⟨more, rfl⟩
    · exact .inl rfl
    · exact .inr ⟨_, _, rfl, .inl rfl⟩
  | cons hn _ =>
    obtain ⟨_, _, _⟩ := hn
    exact .inr ⟨_, _, rfl, .inr rfl⟩

/-- A name with indexes behind it is read as these steps. -/
theorem scan_name {text more rest : List Char} {name : String} {ns : List Nat}
    (hname : Name text name more) (hns : Indexes more ns rest)
    (hrest : rest = [] ∨ ∃ more', rest = '.' :: more') :
    scan (.inName []) text =
      (scan .afterIndex rest).map fun es => .name name :: (ns.map .index ++ es) := by
  obtain ⟨hunits, hne⟩ := hname
  rw [scan_units hunits, List.append_nil, scan_close (by simpa using hne) (hns.front hrest),
    scan_indexes hns, nameOf, List.reverse_reverse]
  cases scan .afterIndex rest <;> rfl

/-- The reader takes every text that is derived, with the steps of the derivation. -/
theorem scan_of_derives {text : List Char} {es : List PathElement} (h : Derives text es) :
    scan (.inName []) text = .ok es := by
  induction h with
  | last hname hns =>
    rw [scan_name hname hns (.inl rfl)]
    simp [scan, finish, Except.map]
  | @point _ _ _ _ rest _ hname hns _ ih =>
    rw [scan_name hname hns (.inr ⟨rest, rfl⟩), Moves.name.scan_eq, ih]
    rfl

/-! ## Deriving what is read -/

/-- What a reader may still meet in a state, and the steps that it then adds. -/
def Accepts : PathState → List Char → List PathElement → Prop
  | .inName read, text, es => ∃ name more es', Units text name more ∧ read.reverse ++ name ≠ [] ∧
      Continues more es' ∧ es = .name (String.ofList (read.reverse ++ name)) :: es'
  | .afterBackslash read, text, es => ∃ name more es', Units ('\\' :: text) name more ∧
      name ≠ [] ∧ Continues more es' ∧ es = .name (String.ofList (read.reverse ++ name)) :: es'
  | .inIndex read, text, es => ∃ digits more es', (∀ d ∈ digits, d.isDigit = true) ∧
      text = digits ++ ']' :: more ∧ read.reverse ++ digits ≠ [] ∧
      Nat.ofDigitChars 10 (read.reverse ++ digits) 0 < twoTo 64 ∧
      Continues more es' ∧ es = .index (Nat.ofDigitChars 10 (read.reverse ++ digits) 0) :: es'
  | .afterIndex, text, es => Continues text es

/-- At the beginning of a name a whole path may come. -/
theorem accepts_inName_nil {text : List Char} {es : List PathElement} :
    Accepts (.inName []) text es ↔ Derives text es := by
  rw [derives_iff]
  constructor
  · rintro ⟨name, more, es', hunits, hne, hmore, rfl⟩
    exact ⟨_, more, es', .mk hunits hne, hmore, rfl⟩
  · rintro ⟨_, more, es', ⟨hunits, hne⟩, hmore, rfl⟩
    exact ⟨_, more, es', hunits, hne, hmore, rfl⟩

/-- Behind an opened bracket the rest of an index may come. -/
theorem accepts_inIndex_nil {text : List Char} {es : List PathElement}
    (h : Accepts (.inIndex []) text es) : Continues ('[' :: text) es := by
  obtain ⟨digits, more, es', hdigits, rfl, hne, hlt, hmore, rfl⟩ := h
  exact hmore.index (.mk hne hdigits hlt)

/-- The name that was read ends here. -/
theorem accepts_close {read text : List Char} {es : List PathElement} (hread : read ≠ [])
    (h : Continues text es) : Accepts (.inName read) text (nameOf read :: es) :=
  ⟨[], text, es, .nil, by simpa using hread, h, by simp [nameOf]⟩

/-- One character keeps what may still come: what it completes and what comes after it can come
from the state before it. -/
theorem Accepts.of_moves {state next : PathState} {c : Char} {done : Option PathElement}
    {text : List Char} {es : List PathElement} (hmoves : Moves state c done next)
    (h : Accepts next text es) : Accepts state (c :: text) (done.toList ++ es) := by
  cases hmoves with
  | backslash =>
    obtain ⟨name, more, es', hunits, hne, hmore, rfl⟩ := h
    exact ⟨name, more, es', hunits, by simp [hne], hmore, rfl⟩
  | point hread => exact accepts_close hread (.point (accepts_inName_nil.1 h))
  | bracket hread => exact accepts_close hread (accepts_inIndex_nil h)
  | plain hc =>
    obtain ⟨name, more, es', hunits, -, hmore, rfl⟩ := h
    exact ⟨c :: name, more, es', .plain hc hunits, by simp, hmore, by simp⟩
  | escaped hc =>
    obtain ⟨name, more, es', hunits, -, hmore, rfl⟩ := h
    exact ⟨c :: name, more, es', .escaped hc hunits, by simp, hmore, by simp⟩
  | kept hc =>
    obtain ⟨name, more, es', hunits, -, hmore, rfl⟩ := h
    exact ⟨'\\' :: c :: name, more, es', .kept hc hunits, by simp, hmore, by simp⟩
  | close hread hlt =>
    exact ⟨[], text, es, by simp, rfl, by simpa using hread, by simpa using hlt, h, by simp⟩
  | digit hc =>
    obtain ⟨digits, more, es', hdigits, rfl, -, hlt, hmore, rfl⟩ := h
    exact ⟨c :: digits, more, es', List.forall_mem_cons.2 ⟨hc, hdigits⟩, rfl, by simp,
      by simpa using hlt, hmore, by simp⟩
  | name => exact .point (accepts_inName_nil.1 h)
  | index => exact accepts_inIndex_nil h

/-- At the end of a text nothing more needs to come. -/
theorem accepts_of_finish {state : PathState} {es : List PathElement}
    (h : finish state = .ok es) : Accepts state [] es := by
  cases state with
  | inName read =>
    simp only [finish] at h
    by_cases hread : read = []
    · simp [hread] at h
    · rw [if_neg (by simpa using hread)] at h
      cases h
      exact accepts_close hread .nil
  | afterBackslash read =>
    cases h
    exact ⟨['\\'], [], [], .last, by simp, .nil, by simp [nameOf]⟩
  | inIndex read => cases h
  | afterIndex =>
    cases h
    exact .nil

/-- What a reader accepts from a state on may come from that state, by induction on the text. -/
theorem accepts_of_scan {state : PathState} {text : List Char} {es : List PathElement}
    (h : scan state text = .ok es) : Accepts state text es := by
  induction text generalizing state es with
  | nil => exact accepts_of_finish h
  | cons c text ih =>
    rw [scan] at h
    obtain ⟨⟨done, next⟩, hstep, h⟩ := bind_eq_ok.1 h
    obtain ⟨more, hmore, h⟩ := bind_eq_ok.1 h
    cases h
    exact (ih hmore).of_moves (step_eq_ok_iff.1 hstep)

/-! ## Both ways -/

theorem scan_eq_ok_iff {text : List Char} {es : List PathElement} :
    scan (.inName []) text = .ok es ↔ Derives text es :=
  ⟨fun h => accepts_inName_nil.1 (accepts_of_scan h), scan_of_derives⟩

theorem parse_eq_ok_iff {text : String} {p : Path} :
    parse text = .ok p ↔ scan (.inName []) text.toList = .ok p.elements := by
  unfold parse ofText?
  cases h : scan (.inName []) text.toList with
  | error fault => simp [bind, Except.bind]
  | ok es =>
    show Except.ok (⟨es⟩ : Path) = .ok p ↔ _
    rw [Except.ok.injEq, Except.ok.injEq]
    constructor
    · rintro rfl
      rfl
    · rintro rfl
      rfl

theorem parse_eq_ok_iff_derives {text : String} {p : Path} :
    parse text = .ok p ↔ Derives text.toList p.elements :=
  parse_eq_ok_iff.trans scan_eq_ok_iff

/-- **The reader accepts exactly the grammar.**  A text is read as a path exactly if it is derived
by the rules, and the steps of the path are those of the derivation, in their order. -/
theorem parse_accepts_grammar (text : String) :
    ((∃ p, parse text = .ok p) ↔ ∃ es, Derives text.toList es) ∧
      ∀ p, parse text = .ok p ↔ Derives text.toList p.elements := by
  have hparse : ∀ p, parse text = .ok p ↔ Derives text.toList p.elements :=
    fun _ => parse_eq_ok_iff_derives
  refine ⟨?_, hparse⟩
  constructor
  · rintro ⟨p, hp⟩
    exact ⟨p.elements, (hparse p).1 hp⟩
  · rintro ⟨es, hes⟩
    exact ⟨⟨es⟩, (hparse ⟨es⟩).2 hes⟩

/-- Escaped and real delimiters side by side, an escaped backslash before a point, leading zeros and
a backslash at the end. -/
example : (parse "a\\.b\\\\.[x\\[0][007]\\x\\").toOption = none ∧
    (parse "a\\.b\\\\.x\\[0][007][18446744073709551615].y\\z\\").toOption =
      some ⟨[.name "a.b\\", .name "x[0]", .index 7, .index 18446744073709551615,
        .name "y\\z\\"]⟩ := by
  decide +kernel

end Path

end ItemStore
