import Mathlib.Data.List.Basic
import ItemStore.Proofs.Expression.Signs

/-!
# Lexemes

A reader of conditions first cuts the signs of a text into lexemes: words of letters, digits and
underscores, comparison signs, every other character on its own, and placeholders.  Blanks only
separate.

* `lexemes_map`: what the placeholders are does not matter for the cut.
* `lexemes_append`: signs behind one another can be cut apart wherever no word and no comparison
  sign runs over the seam.
-/

namespace ItemStore

/-- A lexeme, with placeholders of type `α`. -/
inductive Lexeme (α : Type) where
  /-- A word, a comparison sign or another character. -/
  | text (s : String)
  /-- A placeholder. -/
  | placeholder (a : α)
deriving DecidableEq, Repr

/-- The same lexeme with another placeholder. -/
def Lexeme.map {α β : Type} (f : α → β) : Lexeme α → Lexeme β
  | .text s => .text s
  | .placeholder a => .placeholder (f a)

@[simp] theorem Lexeme.map_text {α β : Type} (f : α → β) (s : String) :
    (Lexeme.text s).map f = .text s := rfl

@[simp] theorem Lexeme.map_placeholder {α β : Type} (f : α → β) (a : α) :
    (Lexeme.placeholder a).map f = .placeholder (f a) := rfl

namespace Lexeme

variable {α β : Type}

/-! ## Cutting -/

/-- Whether a character may stand in a comparison sign. -/
def isComparator (c : Char) : Bool := c == '<' || c == '=' || c == '>'

/-- Whether two characters behind one another belong to one lexeme. -/
def joins (c d : Char) : Bool :=
  (Piece.isTokenChar c && Piece.isTokenChar d) || (isComparator c && isComparator d)

/-- Whether a character belongs to one lexeme with the sign behind it. -/
def joinsNext (c : Char) : List (Sign α) → Bool
  | .char d :: _ => joins c d
  | _ => false

/-- Put a character in front of the first lexeme. -/
def lengthen (c : Char) : List (Lexeme α) → List (Lexeme α)
  | .text s :: rest => .text (String.ofList (c :: s.toList)) :: rest
  | ls => ls

/-- The lexemes of signs. -/
def ofSigns : List (Sign α) → List (Lexeme α)
  | [] => []
  | .placeholder a :: rest => .placeholder a :: ofSigns rest
  | .char c :: rest =>
    if c.isWhitespace then ofSigns rest
    else if joinsNext c rest then lengthen c (ofSigns rest)
    else .text (String.singleton c) :: ofSigns rest

/-! ## Cutting and renaming -/

theorem joinsNext_map (f : α → β) (c : Char) (ss : List (Sign α)) :
    joinsNext c (ss.map (Sign.map f)) = joinsNext c ss := by
  cases ss with
  | nil => rfl
  | cons s ss => cases s <;> rfl

theorem lengthen_map (f : α → β) (c : Char) (ls : List (Lexeme α)) :
    lengthen c (ls.map (Lexeme.map f)) = (lengthen c ls).map (Lexeme.map f) := by
  cases ls with
  | nil => rfl
  | cons l ls => cases l <;> rfl

/-- What the placeholders are does not matter. -/
theorem ofSigns_map (f : α → β) (ss : List (Sign α)) :
    ofSigns (ss.map (Sign.map f)) = (ofSigns ss).map (Lexeme.map f) := by
  induction ss with
  | nil => rfl
  | cons s ss ih =>
    cases s with
    | placeholder a => rw [List.map_cons, Sign.map_placeholder, ofSigns, ih, ofSigns]; rfl
    | char c =>
      rw [List.map_cons, Sign.map_char, ofSigns, ofSigns, joinsNext_map, ih]
      split
      · rfl
      · split
        · exact lengthen_map f c _
        · rfl

/-! ## Cutting at a seam -/

/-- Whether signs end in no word and no comparison sign. -/
def Shut (ss : List (Sign α)) : Prop :=
  ∀ c, .char c ∈ ss.getLast? → Piece.isTokenChar c = false ∧ isComparator c = false

theorem shut_nil : Shut ([] : List (Sign α)) := by
  intro c hc
  simp at hc

theorem Shut.append {p q : List (Sign α)} (hp : Shut p) (hq : Shut q) : Shut (p ++ q) := by
  intro c hc
  rw [List.getLast?_append] at hc
  cases h : q.getLast? with
  | none => rw [h] at hc; exact hp c hc
  | some s => rw [h] at hc; exact hq c (by rw [h]; exact hc)

theorem shut_placeholder (a : α) : Shut [Sign.placeholder a] := by
  intro c hc
  simp at hc

theorem shut_literal {text : String} (h : ∀ c ∈ text.toList.getLast?,
    Piece.isTokenChar c = false ∧ isComparator c = false) :
    Shut (Sign.literal text : List (Sign α)) := by
  intro c hc
  rw [Sign.literal, List.getLast?_map] at hc
  obtain ⟨d, hd, heq⟩ := Option.map_eq_some_iff.1 hc
  cases heq
  exact h c hd

/-- Signs with more behind them end as the others do. -/
theorem Shut.of_right {p q : List (Sign α)} (hq : Shut q) (hne : q ≠ []) : Shut (p ++ q) := by
  intro c hc
  rw [List.getLast?_append_of_ne_nil p hne] at hc
  exact hq c hc

theorem Shut.tail {s : Sign α} {ss : List (Sign α)} (h : Shut (s :: ss)) : Shut ss := by
  intro c hc
  cases ss with
  | nil => simp at hc
  | cons s' ss => exact h c (by rw [List.getLast?_cons_cons]; exact hc)

theorem isWhitespace_of_joins {c d : Char} (h : joins c d = true) : d.isWhitespace = false := by
  cases hd : d.isWhitespace with
  | false => rfl
  | true =>
    have hcases : d = ' ' ∨ d = '\t' ∨ d = '\r' ∨ d = '\n' := by
      simpa [Char.isWhitespace, or_assoc] using hd
    have hno : Piece.isTokenChar d = false ∧ isComparator d = false := by
      rcases hcases with rfl | rfl | rfl | rfl <;> decide
    rw [joins, hno.1, hno.2, Bool.and_false, Bool.and_false] at h
    cases h

/-- Where a character belongs to one lexeme with the sign behind it, there is such a lexeme. -/
theorem ofSigns_of_joinsNext {c : Char} {p : List (Sign α)} (h : joinsNext c p = true) :
    ∃ s ls, ofSigns p = .text s :: ls := by
  induction p generalizing c with
  | nil => cases h
  | cons s p ih =>
    cases s with
    | placeholder a => cases h
    | char d =>
      rw [ofSigns, isWhitespace_of_joins h]
      cases hjoins : joinsNext d p with
      | true =>
        obtain ⟨s, ls, hls⟩ := ih hjoins
        rw [hls]
        exact ⟨_, _, rfl⟩
      | false => exact ⟨_, _, rfl⟩

/-- Signs that are cut apart from what follows them. -/
theorem ofSigns_append {p q : List (Sign α)} (h : Shut p) :
    ofSigns (p ++ q) = ofSigns p ++ ofSigns q := by
  induction p with
  | nil => rfl
  | cons s p ih =>
    have ih' := ih h.tail
    cases s with
    | placeholder a => rw [List.cons_append, ofSigns, ofSigns, ih', List.cons_append]
    | char c =>
      have hseam : joinsNext c (p ++ q) = joinsNext c p := by
        cases p with
        | cons s' p => cases s' <;> rfl
        | nil =>
          obtain ⟨htoken, hcomparator⟩ := h c (by simp)
          cases q with
          | nil => rfl
          | cons s' q => cases s' <;> simp [joinsNext, joins, htoken, hcomparator]
      rw [List.cons_append, ofSigns, ofSigns, hseam, ih']
      split
      · rfl
      · split
        · rename_i hjoins
          obtain ⟨s, ls, hls⟩ := ofSigns_of_joinsNext hjoins
          rw [hls]
          rfl
        · rfl

/-- Letters, digits and underscores behind one another are one word. -/
theorem ofSigns_word {cs : List Char} (hne : cs ≠ [])
    (hcs : ∀ c ∈ cs, Piece.isTokenChar c = true) {q : List (Sign α)}
    (hq : ∀ c, Piece.isTokenChar c = true → joinsNext c q = false) :
    ofSigns (cs.map .char ++ q) = .text (String.ofList cs) :: ofSigns q := by
  have hblank : ∀ c, Piece.isTokenChar c = true → c.isWhitespace = false := fun c hc =>
    isWhitespace_of_joins (c := c) (by rw [joins, hc]; rfl)
  induction cs with
  | nil => exact absurd rfl hne
  | cons c cs ih =>
    have hc : Piece.isTokenChar c = true := hcs c (List.mem_cons_self ..)
    cases cs with
    | nil =>
      rw [List.map_cons, List.map_nil, List.cons_append, List.nil_append, ofSigns, hblank c hc,
        hq c hc]
      rfl
    | cons d cs =>
      have hd : Piece.isTokenChar d = true := hcs d (by simp)
      have hjoins : joinsNext c ((d :: cs).map .char ++ q) = true := by
        show joins c d = true
        rw [joins, hc, hd]
        rfl
      have ih' := ih (List.cons_ne_nil _ _) fun x hx => hcs x (List.mem_cons_of_mem _ hx)
      rw [List.map_cons, List.cons_append, ofSigns, hblank c hc, hjoins, ih', lengthen,
        String.toList_ofList]
      rfl

end Lexeme

end ItemStore
