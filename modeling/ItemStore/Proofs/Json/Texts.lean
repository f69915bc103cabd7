import Mathlib.Data.List.TakeWhile
import ItemStore.Proofs.Json.Trees

/-!
# The bytes of JSON text

JSON text is said here without a scanner: a lexeme is written with its bytes (`Lexeme.Written`), a
string with bytes that stand for themselves and with escapes, and lexemes stand one after another
with blanks between them (`Lexeme.Text`).  The first pass reads exactly this
(`Lexeme.ofBytes?_eq_some_iff`), so JSON text is the text of a tree (`Draft.ofBytes?_eq_some_iff`).

* `Lexeme.Collects` is what the states for words and for numbers have in common: they go on as far
  as they can, and what they have then is a lexeme (`Collects.scan_append`).
* `Lexeme.exists_quote_of_scan`, `scan_string`: a string is read up to its closing quote, unit by
  unit.
* `Lexeme.text_of_scan`, `scan_of_text`: the two directions, over whole texts.
-/

namespace ItemStore

namespace Json

open Json.Lexeme (isSpace isLetter isNumberByte escaped? hexValue? isNumber ofWord? scan start
  finish)

/-! ## What is written -/

/-- How a unit of a string is written: as a byte that stands for itself, or as an escape. -/
inductive StringUnit.Written : StringUnit → List UInt8 → Prop
  | byte {b : UInt8} : b ≠ 0x22 → b ≠ 0x5c → 0x20 ≤ b → Written (.byte b) [b]
  | escape {letter b : UInt8} : escaped? letter = some b → Written (.byte b) [0x5c, letter]
  | codeUnit {x y z w : UInt8} {i j k l : Nat} : hexValue? x = some i → hexValue? y = some j →
      hexValue? z = some k → hexValue? w = some l →
      Written (.codeUnit (((i * 16 + j) * 16 + k) * 16 + l)) [0x5c, 0x75, x, y, z, w]

/-- How a string is written between its quotes, unit by unit. -/
inductive StringUnit.WrittenAll : List StringUnit → List UInt8 → Prop
  | nil : WrittenAll [] []
  | cons {u : StringUnit} {us : List StringUnit} {front bs : List UInt8} :
      Written u front → WrittenAll us bs → WrittenAll (u :: us) (front ++ bs)

theorem StringUnit.Written.ne_nil {u : StringUnit} {bs : List UInt8} (h : Written u bs) :
    bs ≠ [] := by
  cases h <;> exact List.cons_ne_nil _ _

namespace Lexeme

/-- The character of a byte below 128. -/
def char (b : UInt8) : Char := Char.ofNat b.toNat

/-- The number that characters are. -/
def ofNumber? (cs : List Char) : Option Lexeme := if isNumber cs then some (.number cs) else none

/-- How a lexeme is written. -/
inductive Written : Lexeme → List UInt8 → Prop
  | openArray : Written .openArray [0x5b]
  | closeArray : Written .closeArray [0x5d]
  | openObject : Written .openObject [0x7b]
  | closeObject : Written .closeObject [0x7d]
  | comma : Written .comma [0x2c]
  | colon : Written .colon [0x3a]
  | string {us : List StringUnit} {bs : List UInt8} :
      StringUnit.WrittenAll us bs → Written (.string us) (0x22 :: (bs ++ [0x22]))
  | word {l : Lexeme} {bs : List UInt8} : (∀ b ∈ bs, isLetter b = true) →
      ofWord? (bs.map char) = some l → Written l bs
  | number {l : Lexeme} {bs : List UInt8} : (∀ b ∈ bs, isNumberByte b = true) →
      ofNumber? (bs.map char) = some l → Written l bs

/-- Whether a byte behind a lexeme would be read as a part of it. -/
def goesOn : Lexeme → UInt8 → Bool
  | .null, b => isLetter b
  | .bool _, b => isLetter b
  | .number _, b => isNumberByte b
  | _, _ => false

/-- How lexemes are written one after another, with blanks between them.  Each of them ends where it
cannot go on. -/
inductive Text : List Lexeme → List UInt8 → Prop
  | nil : Text [] []
  | blank {b : UInt8} {ls : List Lexeme} {bs : List UInt8} : isSpace b = true → Text ls bs →
      Text ls (b :: bs)
  | lexeme {l : Lexeme} {ls : List Lexeme} {bs rest : List UInt8} : Written l bs →
      (∀ b ∈ rest.head?, l.goesOn b = false) → Text ls rest → Text (l :: ls) (bs ++ rest)

/-! ## Words and numbers -/

section Run

variable {state : List Char → LexemeState} {p : UInt8 → Bool} {lexeme? : List Char → Option Lexeme}

theorem scan_cons {state state' : LexemeState} {done done' : List Lexeme} {b : UInt8}
    (h : step state done b = some (state', done')) (rest : List UInt8) :
    scan state done (b :: rest) = scan state' done' rest := by
  rw [scan, h]

theorem scan_cons_none {state : LexemeState} {done : List Lexeme} {b : UInt8}
    (h : step state done b = none) (rest : List UInt8) : scan state done (b :: rest) = none := by
  rw [scan, h]

theorem scan_start {state : LexemeState} {done done' : List Lexeme} {b : UInt8}
    (h : start done b = some (state, done')) (rest : List UInt8) :
    scan .between done (b :: rest) = scan state done' rest := by
  have hstep : step .between done b = some (state, done') := h
  exact scan_cons hstep rest

theorem length_lt_of_eq_append {bytes front rest : List UInt8} (h : bytes = front ++ rest)
    (hfront : front ≠ []) : rest.length < bytes.length := by
  have hpos : 0 < front.length := List.length_pos_iff.2 hfront
  rw [h, List.length_append]
  omega

/-- A state that collects characters until the first that it does not take. -/
structure Collects (state : List Char → LexemeState) (p : UInt8 → Bool)
    (lexeme? : List Char → Option Lexeme) : Prop where
  take (cs : List Char) (done : List Lexeme) {b : UInt8} : p b = true →
    step (state cs) done b = some (state (char b :: cs), done)
  leave (cs : List Char) (done : List Lexeme) {b : UInt8} : p b = false →
    step (state cs) done b = (lexeme? cs.reverse).bind fun l => start (l :: done) b
  stop (cs : List Char) (done : List Lexeme) :
    finish (state cs) done = (lexeme? cs.reverse).map (· :: done)

theorem collects_inWord : Collects .inWord isLetter ofWord? := by
  constructor
  · intro cs done b h
    rw [step, if_pos h]
    rfl
  · intro cs done b h
    rw [step, if_neg (by simpa using h), finish]
    cases ofWord? cs.reverse <;> rfl
  · intro cs done
    rfl

theorem collects_inNumber : Collects .inNumber isNumberByte ofNumber? := by
  constructor
  · intro cs done b h
    rw [step, if_pos h]
    rfl
  · intro cs done b h
    rw [step, if_neg (by simpa using h), finish, ofNumber?]
    split <;> rfl
  · intro cs done
    rw [finish, ofNumber?]
    split <;> rfl

/-- What such a state collects is a lexeme, and behind it the scan starts anew. -/
theorem Collects.scan_append (h : Collects state p lexeme?) (cs : List Char) (done : List Lexeme)
    {bs rest : List UInt8} (hbs : ∀ b ∈ bs, p b = true) (hrest : ∀ b ∈ rest.head?, p b = false) :
    scan (state cs) done (bs ++ rest) =
      (lexeme? (cs.reverse ++ bs.map char)).bind fun l => scan .between (l :: done) rest := by
  induction bs generalizing cs with
  | nil =>
    rw [List.map_nil, List.append_nil, List.nil_append]
    cases rest with
    | nil =>
      rw [scan, h.stop]
      cases lexeme? cs.reverse <;> rfl
    | cons b rest =>
      have hstep := h.leave cs done (hrest b rfl)
      cases hlexeme : lexeme? cs.reverse with
      | none =>
        rw [hlexeme] at hstep
        exact scan_cons_none hstep rest
      | some l =>
        rw [hlexeme] at hstep
        rw [scan, hstep, Option.bind_some, Option.bind_some, scan]
        rfl
  | cons b bs ih =>
    obtain ⟨hb, hbs⟩ := List.forall_mem_cons.1 hbs
    rw [List.cons_append, scan_cons (h.take cs done hb), ih (char b :: cs) hbs, List.reverse_cons,
      List.append_assoc]
    rfl

/-- A lexeme that is begun and can be collected is read. -/
theorem Collects.scan_between (h : Collects state p lexeme?) {b : UInt8} {bs rest : List UInt8}
    {done : List Lexeme} {l : Lexeme} (hstart : start done b = some (state [char b], done))
    (hbs : ∀ c ∈ bs, p c = true) (hl : lexeme? ((b :: bs).map char) = some l)
    (hrest : ∀ c ∈ rest.head?, p c = false) :
    scan .between done (b :: bs ++ rest) = scan .between (l :: done) rest := by
  have hscan := h.scan_append [char b] done hbs hrest
  rw [List.reverse_singleton, List.singleton_append, ← List.map_cons, hl,
    Option.bind_some] at hscan
  rw [List.cons_append, scan_start hstart, hscan]

end Run

/-! ## Strings -/

section Strings

variable {state : LexemeState} {done r : List Lexeme} {units : List StringUnit}
  {bytes : List UInt8}

/-- A scan that cannot end here reads a byte. -/
theorem exists_step_of_scan (h : scan state done bytes = some r)
    (hopen : finish state done = none) :
    ∃ b rest next, bytes = b :: rest ∧ step state done b = some next ∧
      scan next.1 next.2 rest = some r := by
  cases bytes with
  | nil =>
    rw [scan, hopen] at h
    cases h
  | cons b rest =>
    rw [scan] at h
    split at h
    · rename_i hstep
      exact ⟨b, rest, _, rfl, hstep, h⟩
    · cases h

/-- The state after another digit of a code unit. -/
def afterDigit (units : List StringUnit) (digits : List Nat) (l : Nat) : LexemeState :=
  match digits with
  | [k, j, i] => .inString (.codeUnit (((i * 16 + j) * 16 + k) * 16 + l) :: units)
  | digits => .inCodeUnit units (l :: digits)

theorem step_inCodeUnit (digits : List Nat) (b : UInt8) :
    step (.inCodeUnit units digits) done b =
      (hexValue? b).map fun l => (afterDigit units digits l, done) := by
  unfold step
  cases hexValue? b with
  | none => rcases digits with _ | ⟨k, _ | ⟨j, _ | ⟨i, _ | ⟨h, digits⟩⟩⟩⟩ <;> rfl
  | some l => rcases digits with _ | ⟨k, _ | ⟨j, _ | ⟨i, _ | ⟨h, digits⟩⟩⟩⟩ <;> rfl

/-- A digit of a code unit is read. -/
theorem scan_digit (digits : List Nat) {b : UInt8} {l : Nat} (h : hexValue? b = some l)
    (rest : List UInt8) :
    scan (.inCodeUnit units digits) done (b :: rest) =
      scan (afterDigit units digits l) done rest := by
  apply scan_cons
  rw [step_inCodeUnit, h]
  rfl

theorem exists_digit_of_scan {digits : List Nat}
    (h : scan (.inCodeUnit units digits) done bytes = some r) :
    ∃ b l rest, bytes = b :: rest ∧ hexValue? b = some l ∧
      scan (afterDigit units digits l) done rest = some r := by
  obtain ⟨b, rest, next, rfl, hstep, hrest⟩ := exists_step_of_scan h rfl
  rw [step_inCodeUnit, Option.map_eq_some_iff] at hstep
  obtain ⟨l, hl, rfl⟩ := hstep
  exact ⟨b, l, rest, rfl, hl, hrest⟩

/-- Behind a backslash stands a letter for a byte, or a code unit of four digits. -/
theorem exists_escape_of_scan (h : scan (.afterBackslash units) done bytes = some r) :
    ∃ u front rest, bytes = front ++ rest ∧ StringUnit.Written u (0x5c :: front) ∧
      scan (.inString (u :: units)) done rest = some r := by
  obtain ⟨letter, rest, next, rfl, hstep, hrest⟩ := exists_step_of_scan h rfl
  rw [step] at hstep
  split at hstep
  · rename_i hletter
    cases hstep
    rw [beq_iff_eq] at hletter
    subst hletter
    obtain ⟨x, i, rest, rfl, hx, hrest⟩ := exists_digit_of_scan hrest
    obtain ⟨y, j, rest, rfl, hy, hrest⟩ := exists_digit_of_scan hrest
    obtain ⟨z, k, rest, rfl, hz, hrest⟩ := exists_digit_of_scan hrest
    obtain ⟨w, l, rest, rfl, hw, hrest⟩ := exists_digit_of_scan hrest
    exact ⟨_, [0x75, x, y, z, w], rest, rfl, .codeUnit hx hy hz hw, hrest⟩
  · obtain ⟨b, hb, rfl⟩ := Option.map_eq_some_iff.1 hstep
    exact ⟨_, [letter], rest, rfl, .escape hb, hrest⟩

/-- Inside a string stands its closing quote or another unit. -/
theorem exists_unit_of_scan (h : scan (.inString units) done bytes = some r) :
    (∃ rest, bytes = 0x22 :: rest ∧
        scan .between (.string units.reverse :: done) rest = some r) ∨
      ∃ u front rest, bytes = front ++ rest ∧ StringUnit.Written u front ∧
        scan (.inString (u :: units)) done rest = some r := by
  obtain ⟨b, rest, next, rfl, hstep, hrest⟩ := exists_step_of_scan h rfl
  rw [step] at hstep
  split at hstep
  · rename_i hquote
    cases hstep
    rw [beq_iff_eq] at hquote
    subst hquote
    exact .inl ⟨rest, rfl, hrest⟩
  right
  split at hstep
  · rename_i hbackslash
    cases hstep
    rw [beq_iff_eq] at hbackslash
    subst hbackslash
    obtain ⟨u, front, rest, rfl, hu, hrest⟩ := exists_escape_of_scan hrest
    exact ⟨u, 0x5c :: front, rest, rfl, hu, hrest⟩
  split at hstep
  · cases hstep
  · rename_i hquote hbackslash hcontrol
    cases hstep
    rw [beq_iff_eq] at hquote hbackslash
    exact ⟨.byte b, [b], rest, rfl, .byte hquote hbackslash (UInt8.not_lt.1 hcontrol), hrest⟩

/-- What is read of a string has a closing quote behind its units. -/
theorem exists_quote_of_scan (h : scan (.inString units) done bytes = some r) :
    ∃ us body rest, bytes = body ++ 0x22 :: rest ∧ StringUnit.WrittenAll us body ∧
      scan .between (.string (units.reverse ++ us) :: done) rest = some r := by
  -- a unit takes several bytes, so the induction is on their number
  induction hn : bytes.length using Nat.strongRecOn generalizing bytes units with
  | ind n ih =>
    subst hn
    rcases exists_unit_of_scan h with ⟨rest, rfl, hrest⟩ | ⟨u, front, rest, hbytes, hu, hrest⟩
    · refine ⟨[], [], rest, rfl, .nil, ?_⟩
      rw [List.append_nil]
      exact hrest
    · have hlt : rest.length < bytes.length := length_lt_of_eq_append hbytes hu.ne_nil
      obtain ⟨us, body, rest', rfl, hus, hscan⟩ := ih _ hlt hrest rfl
      rw [List.reverse_cons, List.append_assoc, List.singleton_append] at hscan
      refine ⟨u :: us, front ++ body, rest', ?_, .cons hu hus, hscan⟩
      rw [hbytes, List.append_assoc]

/-- A unit is read as it is written. -/
theorem scan_unit {u : StringUnit} {front : List UInt8} (hu : StringUnit.Written u front)
    (rest : List UInt8) :
    scan (.inString units) done (front ++ rest) = scan (.inString (u :: units)) done rest := by
  cases hu with
  | @byte b hquote hbackslash hcontrol =>
    have hstep : step (.inString units) done b = some (.inString (.byte b :: units), done) := by
      rw [step, if_neg (by simpa using hquote), if_neg (by simpa using hbackslash),
        if_neg (UInt8.not_lt.2 hcontrol)]
    exact scan_cons hstep rest
  | @escape letter b hb =>
    have hstep : step (.afterBackslash units) done letter =
        some (.inString (.byte b :: units), done) := by
      have hne : letter ≠ 0x75 := by
        rintro rfl
        cases hb
      rw [step, if_neg (by simpa using hne), hb]
      rfl
    calc scan (.inString units) done (0x5c :: letter :: rest)
        = scan (.afterBackslash units) done (letter :: rest) := scan_cons rfl _
      _ = _ := scan_cons hstep rest
  | @codeUnit x y z w i j k l hx hy hz hw =>
    calc scan (.inString units) done (0x5c :: 0x75 :: x :: y :: z :: w :: rest)
        = scan (.afterBackslash units) done (0x75 :: x :: y :: z :: w :: rest) := scan_cons rfl _
      _ = scan (.inCodeUnit units []) done (x :: y :: z :: w :: rest) := scan_cons rfl _
      _ = scan (.inCodeUnit units [i]) done (y :: z :: w :: rest) := scan_digit [] hx _
      _ = scan (.inCodeUnit units [j, i]) done (z :: w :: rest) := scan_digit [i] hy _
      _ = scan (.inCodeUnit units [k, j, i]) done (w :: rest) := scan_digit [j, i] hz _
      _ = _ := scan_digit [k, j, i] hw rest

/-- A string is read with its closing quote. -/
theorem scan_string {us : List StringUnit} {body : List UInt8}
    (hus : StringUnit.WrittenAll us body) (rest : List UInt8) :
    scan (.inString units) done (body ++ 0x22 :: rest) =
      scan .between (.string (units.reverse ++ us) :: done) rest := by
  induction hus generalizing units with
  | nil =>
    have hquote : step (.inString units) done 0x22 =
        some (.between, .string units.reverse :: done) := rfl
    rw [List.nil_append, scan_cons hquote, List.append_nil]
  | cons hu hus ih =>
    rw [List.append_assoc, scan_unit hu, ih, List.reverse_cons, List.append_assoc]
    rfl

end Strings

/-! ## Lexemes -/

/-- How a byte between lexemes is read. -/
inductive Starts (done : List Lexeme) (b : UInt8) : LexemeState × List Lexeme → Prop
  | blank : isSpace b = true → Starts done b (.between, done)
  | sign {l : Lexeme} : Written l [b] → (∀ c, l.goesOn c = false) →
      Starts done b (.between, l :: done)
  | quote : b = 0x22 → Starts done b (.inString [], done)
  | letter : isLetter b = true → Starts done b (.inWord [char b], done)
  | number : isNumberByte b = true → Starts done b (.inNumber [char b], done)

theorem starts_sign {done : List Lexeme} {b c : UInt8} {l : Lexeme} (hb : (b == c) = true)
    (hl : Written l [c]) (hend : ∀ c, l.goesOn c = false) :
    Starts done b (.between, l :: done) := by
  rw [beq_iff_eq] at hb
  subst hb
  exact .sign hl hend

theorem starts {done : List Lexeme} {b : UInt8} {next : LexemeState × List Lexeme}
    (h : start done b = some next) : Starts done b next := by
  unfold start at h
  split at h
  · rename_i hb
    cases h
    exact .blank hb
  split at h
  · rename_i hb
    cases h
    exact starts_sign hb .openArray fun _ => rfl
  split at h
  · rename_i hb
    cases h
    exact starts_sign hb .closeArray fun _ => rfl
  split at h
  · rename_i hb
    cases h
    exact starts_sign hb .openObject fun _ => rfl
  split at h
  · rename_i hb
    cases h
    exact starts_sign hb .closeObject fun _ => rfl
  split at h
  · rename_i hb
    cases h
    exact starts_sign hb .comma fun _ => rfl
  split at h
  · rename_i hb
    cases h
    exact starts_sign hb .colon fun _ => rfl
  split at h
  · rename_i hb
    cases h
    exact .quote (beq_iff_eq.1 hb)
  split at h
  · rename_i hb
    cases h
    exact .letter hb
  split at h
  · rename_i hb
    cases h
    exact .number hb
  · cases h

theorem goesOn_of_ofWord? {cs : List Char} {l : Lexeme} (h : ofWord? cs = some l) :
    l.goesOn = isLetter := by
  unfold ofWord? at h
  split at h
  · cases h
    rfl
  split at h
  · cases h
    rfl
  split at h
  · cases h
    rfl
  · cases h

theorem goesOn_of_ofNumber? {cs : List Char} {l : Lexeme} (h : ofNumber? cs = some l) :
    l.goesOn = isNumberByte := by
  unfold ofNumber? at h
  split at h
  · cases h
    rfl
  · cases h

/-- A lexeme that is collected is written with the bytes that it takes. -/
theorem Collects.exists_of_scan {state : List Char → LexemeState} {p : UInt8 → Bool}
    {lexeme? : List Char → Option Lexeme} (hstate : Collects state p lexeme?) {b : UInt8}
    {done r : List Lexeme} {bytes : List UInt8} (hb : p b = true)
    (h : scan (state [char b]) done bytes = some r) :
    ∃ bs rest l, bytes = bs ++ rest ∧ (∀ c ∈ b :: bs, p c = true) ∧
      lexeme? ((b :: bs).map char) = some l ∧ (∀ c ∈ rest.head?, p c = false) ∧
      scan .between (l :: done) rest = some r := by
  have htake : ∀ c ∈ bytes.takeWhile p, p c = true := fun c hc => List.mem_takeWhile_imp hc
  have hdrop : ∀ c ∈ (bytes.dropWhile p).head?, p c = false := by
    intro c hc
    have := List.head?_dropWhile_not p bytes
    rw [hc] at this
    simpa using this
  rw [← List.takeWhile_append_dropWhile (p := p) (l := bytes),
    hstate.scan_append [char b] done htake hdrop, Option.bind_eq_some_iff] at h
  obtain ⟨l, hl, hrest⟩ := h
  exact ⟨_, _, l, List.takeWhile_append_dropWhile.symm, List.forall_mem_cons.2 ⟨hb, htake⟩, hl,
    hdrop, hrest⟩

theorem Written.ne_nil {l : Lexeme} {bs : List UInt8} (h : Written l bs) : bs ≠ [] := by
  cases h with
  | word _ hl =>
    rintro rfl
    cases hl
  | number _ hl =>
    rintro rfl
    cases hl
  | _ => exact List.cons_ne_nil _ _

/-- Between lexemes stands a blank or another lexeme. -/
theorem exists_lexeme_of_scan {done r : List Lexeme} {b : UInt8} {bytes : List UInt8}
    (h : scan .between done (b :: bytes) = some r) :
    (isSpace b = true ∧ scan .between done bytes = some r) ∨
      ∃ l front rest, b :: bytes = front ++ rest ∧ Written l front ∧
        (∀ c ∈ rest.head?, l.goesOn c = false) ∧ scan .between (l :: done) rest = some r := by
  rw [scan] at h
  split at h
  · rename_i hstep
    cases starts hstep with
    | blank hb => exact .inl ⟨hb, h⟩
    | @sign l hl hend => exact .inr ⟨l, [b], bytes, rfl, hl, fun c _ => hend c, h⟩
    | quote hb =>
      subst hb
      obtain ⟨us, body, rest, rfl, hus, hrest⟩ := exists_quote_of_scan h
      exact .inr ⟨_, 0x22 :: (body ++ [0x22]), rest, by simp, .string hus, fun _ _ => rfl, hrest⟩
    | letter hb =>
      obtain ⟨bs, rest, l, rfl, hbs, hl, hend, hrest⟩ := collects_inWord.exists_of_scan hb h
      rw [← goesOn_of_ofWord? hl] at hend
      exact .inr ⟨l, b :: bs, rest, rfl, .word hbs hl, hend, hrest⟩
    | number hb =>
      obtain ⟨bs, rest, l, rfl, hbs, hl, hend, hrest⟩ := collects_inNumber.exists_of_scan hb h
      rw [← goesOn_of_ofNumber? hl] at hend
      exact .inr ⟨l, b :: bs, rest, rfl, .number hbs hl, hend, hrest⟩
  · cases h

theorem start_of_isSpace {b : UInt8} (h : isSpace b = true) (done : List Lexeme) :
    start done b = some (.between, done) := by
  rw [start, if_pos h]

theorem start_of_isLetter {b : UInt8} (h : isLetter b = true) (done : List Lexeme) :
    start done b = some (.inWord [char b], done) := by
  unfold start isSpace
  grind [isLetter, char]

/-- The first byte of a number begins a number. -/
theorem start_of_isNumber {b : UInt8} {cs : List Char} (h : isNumber (char b :: cs) = true)
    (hb : isNumberByte b = true) (done : List Lexeme) :
    start done b = some (.inNumber [char b], done) := by
  -- of the bytes of numbers only `e` is a letter too, and no number starts with it
  have hne : b ≠ 0x65 := by
    rintro rfl
    cases h
  have hcases : (0x30 ≤ b ∧ b ≤ 0x39) ∨ b = 0x2d ∨ b = 0x2b ∨ b = 0x2e ∨ b = 0x45 := by
    grind [isNumberByte]
  rcases hcases with hdigit | rfl | rfl | rfl | rfl
  · unfold start isSpace isLetter
    grind [char]
  · rfl
  · rfl
  · rfl
  · rfl

/-- A lexeme is read as far as it goes, and behind it the scan starts anew. -/
theorem scan_written {l : Lexeme} {bs rest : List UInt8} (hl : Written l bs)
    (hend : ∀ b ∈ rest.head?, l.goesOn b = false) (done : List Lexeme) :
    scan .between done (bs ++ rest) = scan .between (l :: done) rest := by
  cases hl with
  | @string us bs hus =>
    rw [List.cons_append, List.append_assoc, List.singleton_append]
    exact (scan_start rfl _).trans (scan_string hus rest)
  | word hbs hl =>
    rw [goesOn_of_ofWord? hl] at hend
    cases bs with
    | nil => cases hl
    | cons b bs =>
      obtain ⟨hb, hbs⟩ := List.forall_mem_cons.1 hbs
      exact collects_inWord.scan_between (start_of_isLetter hb done) hbs hl hend
  | number hbs hl =>
    rw [goesOn_of_ofNumber? hl] at hend
    cases bs with
    | nil => cases hl
    | cons b bs =>
      obtain ⟨hb, hbs⟩ := List.forall_mem_cons.1 hbs
      have hnumber : isNumber ((b :: bs).map char) = true := by
        unfold ofNumber? at hl
        split at hl
        · assumption
        · cases hl
      exact collects_inNumber.scan_between (start_of_isNumber hnumber hb done) hbs hl hend
  | _ => rfl

/-! ## Texts -/

/-- What is read of bytes is written with them. -/
theorem text_of_scan {done r : List Lexeme} {bytes : List UInt8}
    (h : scan .between done bytes = some r) : ∃ ls, r = ls.reverse ++ done ∧ Text ls bytes := by
  -- a lexeme takes several bytes, so the induction is on their number
  induction hn : bytes.length using Nat.strongRecOn generalizing bytes done with
  | ind n ih =>
    subst hn
    cases bytes with
    | nil =>
      cases h
      exact ⟨[], rfl, .nil⟩
    | cons b bytes =>
      rcases exists_lexeme_of_scan h with ⟨hb, hrest⟩ | ⟨l, front, rest, hbytes, hl, hend, hrest⟩
      · obtain ⟨ls, rfl, hls⟩ := ih bytes.length (Nat.lt_succ_self _) hrest rfl
        exact ⟨ls, rfl, .blank hb hls⟩
      · have hlt : rest.length < (b :: bytes).length := length_lt_of_eq_append hbytes hl.ne_nil
        obtain ⟨ls, rfl, hls⟩ := ih _ hlt hrest rfl
        refine ⟨l :: ls, by simp, ?_⟩
        rw [hbytes]
        exact .lexeme hl hend hls

/-- What bytes are written for is read of them. -/
theorem scan_of_text {ls : List Lexeme} {bytes : List UInt8} (h : Text ls bytes)
    (done : List Lexeme) : scan .between done bytes = some (ls.reverse ++ done) := by
  induction h generalizing done with
  | nil => rfl
  | @blank b ls bs hb hls ih =>
    rw [scan_start (start_of_isSpace hb done)]
    exact ih done
  | @lexeme l ls bs rest hl hend hls ih =>
    rw [scan_written hl hend, ih, List.reverse_cons, List.append_assoc]
    rfl

/-- The first pass reads lexemes exactly from the bytes that they are written with. -/
theorem ofBytes?_eq_some_iff {ls : List Lexeme} {bytes : List UInt8} :
    ofBytes? bytes = some ls ↔ Text ls bytes := by
  unfold ofBytes?
  rw [Option.map_eq_some_iff]
  constructor
  · rintro ⟨r, hr, rfl⟩
    obtain ⟨ls, rfl, hls⟩ := text_of_scan hr
    simpa using hls
  · intro h
    exact ⟨_, scan_of_text h [], by simp⟩

end Lexeme

/-- A tree is read exactly from the bytes that its lexemes are written with. -/
theorem Draft.ofBytes?_eq_some_iff {d : Draft} {bytes : List UInt8} :
    Draft.ofBytes? bytes = some d ↔ Lexeme.Text d.lexemes bytes := by
  unfold Draft.ofBytes?
  rw [Option.bind_eq_bind, Option.bind_eq_some_iff]
  constructor
  · rintro ⟨ls, hls, hd⟩
    rw [Draft.arrange_eq_some_iff.1 hd]
    exact Lexeme.ofBytes?_eq_some_iff.1 hls
  · intro h
    exact ⟨d.lexemes, Lexeme.ofBytes?_eq_some_iff.2 h, Draft.arrange_eq_some_iff.2 rfl⟩

end Json

end ItemStore
