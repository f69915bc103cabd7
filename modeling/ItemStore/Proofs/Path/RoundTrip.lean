import ItemStore.Proofs.Path.Grammar

/-!
# Paths are written so that they are read back

Writing a path puts a backslash before every character of a name that means something in a path, so
what is written is derived by the grammar with the very steps of the path (`derives_describe`).  The
other way round the steps of a derivation are always steps that can be written
(`Derives.wellFormed`).  Reading and writing then undo each other on the paths that can be read at
all, which are exactly the well-formed ones (`parse_describe_inverse`).
-/

namespace ItemStore

namespace Path

/-- A path that can be read from some text: it begins with a name, no name is without characters,
and every index fits a word. -/
structure WellFormed (p : Path) : Prop where
  /-- The first step is a name. -/
  rooted : ∃ name rest, p.elements = .name name :: rest
  /-- Names have characters. -/
  names : ∀ name, .name name ∈ p.elements → name ≠ ""
  /-- Indexes fit a word. -/
  indexes : ∀ n, .index n ∈ p.elements → n < twoTo 64

/-! ## What is written is derived -/

/-- A name is written so that its units end where the name ends, whatever stands behind it. -/
theorem units_escape (name rest : List Char) :
    Units (name.flatMap escapeChar ++ rest) name rest := by
  induction name with
  | nil => exact .nil
  | cons c name ih =>
    rw [List.flatMap_cons, List.append_assoc]
    by_cases hc : isSpecial c = true
    · rw [escapeChar, if_pos hc]
      exact .escaped (isSpecial_iff.1 hc) ih
    · rw [escapeChar, if_neg hc]
      exact .plain (fun h => hc (isSpecial_iff.2 h)) ih

/-- The text of a name is derived as the name, whatever characters it has. -/
theorem name_escape {name : String} (hne : name ≠ "") (rest : List Char) :
    Name (escapeName name ++ rest) name rest := by
  have hchars : name.toList ≠ [] := by
    simpa [String.toList_eq_nil_iff] using hne
  have hname := Name.mk (units_escape name.toList rest) hchars
  rwa [String.ofList_toList] at hname

/-- The text of an index is derived as the index, if it fits a word. -/
theorem index_text {n : Nat} (hn : n < twoTo 64) (rest : List Char) :
    Index (indexText n ++ rest) n rest := by
  have hvalue : Nat.ofDigitChars 10 (Nat.toDigits 10 n) 0 = n :=
    Nat.ofDigitChars_toDigits (by decide) (by decide)
  have hdigits : ∀ d ∈ Nat.toDigits 10 n, d.isDigit = true := fun d hd =>
    Nat.isDigit_of_mem_toDigits (by decide) (by decide) hd
  have hindex : Index ('[' :: (Nat.toDigits 10 n ++ ']' :: rest)) _ rest :=
    .mk Nat.toDigits_ne_nil hdigits (by rw [hvalue]; exact hn)
  rw [hvalue] at hindex
  simpa [indexText] using hindex

/-- The steps behind a name are written as what may stand behind one. -/
theorem continues_describeRest {es : List PathElement}
    (hnames : ∀ name, .name name ∈ es → name ≠ "") (hindexes : ∀ n, .index n ∈ es → n < twoTo 64) :
    Continues (describeRest es) es := by
  induction es with
  | nil => exact .nil
  | cons e es ih =>
    have hrest : Continues (describeRest es) es :=
      ih (fun name h => hnames name (List.mem_cons_of_mem _ h))
        (fun n h => hindexes n (List.mem_cons_of_mem _ h))
    cases e with
    | name text =>
      have hname := name_escape (hnames text (List.mem_cons_self ..)) (describeRest es)
      exact .point (derives_iff.2 ⟨_, _, _, hname, hrest, rfl⟩)
    | index n =>
      have hn := index_text (hindexes n (List.mem_cons_self ..)) (describeRest es)
      exact hrest.index hn

/-- What a path is written as is derived as its elements. -/
theorem derives_describe {p : Path} (h : p.WellFormed) :
    Derives (describeElements p.elements) p.elements := by
  obtain ⟨⟨name, rest, hes⟩, hnames, hindexes⟩ := h
  rw [hes] at hnames hindexes ⊢
  have hname := name_escape (hnames name (List.mem_cons_self ..)) (describeRest rest)
  have hrest : Continues (describeRest rest) rest :=
    continues_describeRest (fun name h => hnames name (List.mem_cons_of_mem _ h))
      (fun n h => hindexes n (List.mem_cons_of_mem _ h))
  exact derives_iff.2 ⟨_, _, _, hname, hrest, rfl⟩

/-! ## What is derived can be written -/

theorem Name.ne_empty {text more : List Char} {name : String} (h : Name text name more) :
    name ≠ "" := by
  obtain ⟨-, hne⟩ := h
  intro hempty
  have hlist := congrArg String.toList hempty
  rw [String.toList_ofList] at hlist
  exact hne hlist

theorem Indexes.lt {text more : List Char} {ns : List Nat} (h : Indexes text ns more) :
    ∀ n ∈ ns, n < twoTo 64 := by
  induction h with
  | nil => simp
  | cons hn _ ih =>
    obtain ⟨-, -, hlt⟩ := hn
    exact List.forall_mem_cons.2 ⟨hlt, ih⟩

/-- What is derived has a name in front, names with characters in them and indexes that fit a word.
-/
theorem Derives.wellFormed {text : List Char} {es : List PathElement} (h : Derives text es) :
    WellFormed ⟨es⟩ := by
  induction h with
  | @last _ name _ ns hname hns =>
    refine ⟨⟨name, _, rfl⟩, fun name' h => ?_, fun n h => ?_⟩
    · obtain rfl : name' = name := by simpa using h
      exact hname.ne_empty
    · exact hns.lt n (by simpa using h)
  | @point _ name _ ns _ es hname hns _ ih =>
    refine ⟨⟨name, _, rfl⟩, fun name' h => ?_, fun n h => ?_⟩
    · rcases (by simpa using h : name' = name ∨ .name name' ∈ es) with rfl | h
      · exact hname.ne_empty
      · exact ih.names name' h
    · rcases (by simpa using h : n ∈ ns ∨ .index n ∈ es) with h | h
      · exact hns.lt n h
      · exact ih.indexes n h

/-! ## Both ways -/

theorem wellFormed_of_parse {text : String} {p : Path} (h : parse text = .ok p) : p.WellFormed :=
  (scan_eq_ok_iff.1 (parse_eq_ok_iff.1 h)).wellFormed

/-- A path that can be written is read back from its text. -/
theorem parse_describe {p : Path} (h : p.WellFormed) : parse p.describe = .ok p := by
  rw [parse_eq_ok_iff, scan_eq_ok_iff, describe, String.toList_ofList]
  exact derives_describe h

/-- **Writing and reading undo each other.**  The text of a path is read as that path exactly if the
path is well-formed; every path that is read from a text is, and so its own text is read as the
same path again. -/
theorem parse_describe_inverse :
    (∀ p : Path, parse p.describe = .ok p ↔ p.WellFormed) ∧
      ∀ text p, parse text = .ok p → p.WellFormed ∧ parse p.describe = .ok p :=
  ⟨fun _ => ⟨wellFormed_of_parse, parse_describe⟩,
    fun _ _ h => ⟨wellFormed_of_parse h, parse_describe (wellFormed_of_parse h)⟩⟩

/-- A text whose names end in backslashes, hold delimiters and stand beside indexes. -/
def hardText : String := "a\\[0]\\\\[007][18446744073709551615].\\.b\\c\\"

theorem parse_describe_inverse_hard :
    ∃ p, parse hardText = .ok p ∧ p.WellFormed ∧ parse p.describe = .ok p := by
  obtain ⟨p, hp⟩ := exists_eq_ok (x := parse hardText) (by decide +kernel)
  exact ⟨p, hp, parse_describe_inverse.2 hardText p hp⟩

example : (parse hardText).toOption.map describe =
    some "a\\[0]\\\\[7][18446744073709551615].\\.b\\\\c\\\\" := by
  decide +kernel

end Path

end ItemStore
