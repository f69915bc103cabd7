import ItemStore.Expression.Token

/-!
# The signs of an expression text

To a reader who knows what the placeholders stand for, a text is a sequence of *signs*: characters
that stand for themselves, and whole placeholders.  `signs` reads a text that way, following the
cut into pieces, and `spell` writes signs down again.

* `spell_signs`: writing down what was read gives the text back.
* `signs_spell`: reading what was written gives the signs back, provided that they are `Legal`:
  a placeholder has the shape of one, and no character follows that would prolong it.
* `signs_renameTokens`: hence renaming the placeholders of a text renames its signs, as long as
  the new names have the shape of placeholders too.
* `signs_literal_append`, `signs_token_append`: the signs of a text that is put together from
  literal text and placeholders.
-/

namespace ItemStore

/-- A sign of an expression text, with placeholders of type `α`. -/
inductive Sign (α : Type) where
  /-- A character that stands for itself. -/
  | char (c : Char)
  /-- A placeholder. -/
  | placeholder (a : α)
deriving DecidableEq, Repr

namespace Sign

variable {α β γ : Type}

/-- The same sign with another placeholder. -/
def map (f : α → β) : Sign α → Sign β
  | .char c => .char c
  | .placeholder a => .placeholder (f a)

@[simp] theorem map_char (f : α → β) (c : Char) : (Sign.char c).map f = .char c := rfl

@[simp] theorem map_placeholder (f : α → β) (a : α) :
    (Sign.placeholder a).map f = .placeholder (f a) := rfl

@[simp] theorem map_map (g : β → γ) (f : α → β) (s : Sign α) :
    (s.map f).map g = s.map (g ∘ f) := by
  cases s <;> rfl

/-- The placeholder of a sign, if it is one. -/
def placeholder? : Sign α → Option α
  | .char _ => none
  | .placeholder a => some a

/-- The signs of literal text. -/
def literal (text : String) : List (Sign α) := text.toList.map .char

/-- Literal text has no placeholders to rename. -/
@[simp] theorem map_literal (f : α → β) (text : String) :
    (literal text : List (Sign α)).map (Sign.map f) = literal text := by
  simp [literal, Function.comp_def]

/-- Literal texts behind one another are literal text. -/
theorem literal_append (a b : String) :
    (literal (a ++ b) : List (Sign α)) = literal a ++ literal b := by
  rw [literal, String.toList_append, List.map_append]
  rfl

/-- The characters of a sign. -/
def chars : Sign String → List Char
  | .char c => [c]
  | .placeholder t => t.toList

end Sign

/-- The signs of a piece. -/
def Piece.signs : Piece → List (Sign String)
  | .literal text => text.map .char
  | .token text => [.placeholder (String.ofList text)]

/-- The signs of characters. -/
def signsOfChars (cs : List Char) : List (Sign String) := (Piece.ofChars cs).flatMap Piece.signs

/-- The signs of a text. -/
def signs (text : String) : List (Sign String) := signsOfChars text.toList

/-- The characters that signs are written with. -/
def spell (ss : List (Sign String)) : List Char := ss.flatMap Sign.chars

/-- Characters that do not prolong a placeholder in front of them. -/
def Apart (cs : List Char) : Prop := ∀ c ∈ cs.head?, Piece.isTokenChar c = false

/-- Whether a text has the shape of a placeholder: a sigil with a word behind it. -/
def IsToken (text : String) : Prop :=
  ∃ c w, text.toList = c :: w ∧ Piece.isSigil c = true ∧ w ≠ [] ∧
    ∀ x ∈ w, Piece.isTokenChar x = true

/-! ## Apartness -/

section Decidable

variable {P : Char → Prop} [DecidablePred P]

-- characters of a text are looked at one by one, and not every character there is
instance decideChars {cs : List Char} : Decidable (∀ c ∈ cs, P c) := List.decidableBAll P cs

instance decideChar : {c : Option Char} → Decidable (∀ d ∈ c, P d)
  | none => isTrue (by simp)
  | some c => decidable_of_iff (P c) (by simp)

end Decidable

instance (cs : List Char) : Decidable (Apart cs) :=
  inferInstanceAs (Decidable (∀ c ∈ cs.head?, Piece.isTokenChar c = false))

@[simp] theorem apart_nil : Apart [] := by
  intro c hc
  simp at hc

/-- Characters are apart from a word if the first of them cannot go on with it. -/
@[simp] theorem apart_cons {c : Char} {cs : List Char} :
    Apart (c :: cs) ↔ Piece.isTokenChar c = false := by
  simp [Apart]

/-- Whether characters are apart is decided by the first of them. -/
theorem Apart.append {cs ds : List Char} (hc : Apart cs) (hd : Apart ds) : Apart (cs ++ ds) := by
  cases cs with
  | nil => exact hd
  | cons c cs => exact apart_cons.2 (apart_cons.1 hc)

/-- What is left behind a word is apart from it. -/
theorem apart_dropWhile (cs : List Char) : Apart (cs.dropWhile Piece.isTokenChar) := by
  induction cs with
  | nil => simp
  | cons c cs ih =>
    by_cases h : Piece.isTokenChar c = true
    · rwa [List.dropWhile_cons_of_pos h]
    · rw [List.dropWhile_cons_of_neg h]
      simpa using h

theorem takeWhile_eq_nil_of_apart {cs : List Char} (h : Apart cs) :
    cs.takeWhile Piece.isTokenChar = [] := by
  cases cs with
  | nil => rfl
  | cons c cs => rw [List.takeWhile_cons, apart_cons.1 h]; rfl

theorem apart_of_takeWhile_eq_nil {cs : List Char} (h : cs.takeWhile Piece.isTokenChar = []) :
    Apart cs := by
  have hap := apart_dropWhile cs
  rwa [← List.takeWhile_append_dropWhile (p := Piece.isTokenChar) (l := cs), h,
    List.nil_append]

/-- A word that is followed by what is apart from it is read whole. -/
theorem takeWhile_append_of_apart {w cs : List Char} (hw : ∀ x ∈ w, Piece.isTokenChar x = true)
    (h : Apart cs) : (w ++ cs).takeWhile Piece.isTokenChar = w := by
  rw [List.takeWhile_append_of_pos hw, takeWhile_eq_nil_of_apart h, List.append_nil]

/-- What is apart from a word is what is left behind it. -/
theorem dropWhile_append_of_apart {w cs : List Char} (hw : ∀ x ∈ w, Piece.isTokenChar x = true)
    (h : Apart cs) : (w ++ cs).dropWhile Piece.isTokenChar = cs := by
  rw [List.dropWhile_append_of_pos hw]
  cases cs with
  | nil => rfl
  | cons c cs => rw [List.dropWhile_cons, apart_cons.1 h]; rfl

/-- A sigil prolongs no placeholder. -/
theorem isTokenChar_of_isSigil {c : Char} (h : Piece.isSigil c = true) :
    Piece.isTokenChar c = false := by
  rw [Piece.isSigil, Bool.or_eq_true, beq_iff_eq, beq_iff_eq] at h
  rcases h with rfl | rfl <;> decide

/-- A placeholder begins with a sigil, which is apart from every word. -/
theorem IsToken.apart {text : String} (h : IsToken text) (cs : List Char) :
    Apart (text.toList ++ cs) := by
  obtain ⟨c, w, ht, hc, -, -⟩ := h
  rw [ht, List.cons_append]
  exact apart_cons.2 (isTokenChar_of_isSigil hc)

/-! ## Reading characters -/

@[simp] theorem signsOfChars_nil : signsOfChars [] = [] := by
  simp [signsOfChars, Piece.ofChars]

theorem flatMap_signs_consLiteral (c : Char) (ps : List Piece) :
    (Piece.consLiteral c ps).flatMap Piece.signs = .char c :: ps.flatMap Piece.signs := by
  cases ps with
  | nil => rfl
  | cons p ps => cases p <;> rfl

/-- A character that begins no placeholder is a sign of its own. -/
theorem signsOfChars_cons_of_apart {c : Char} {cs : List Char}
    (h : Piece.isSigil c = true → Apart cs) :
    signsOfChars (c :: cs) = .char c :: signsOfChars cs := by
  have hno : (Piece.isSigil c && !(cs.takeWhile Piece.isTokenChar).isEmpty) = false := by
    cases hc : Piece.isSigil c with
    | false => rfl
    | true => rw [takeWhile_eq_nil_of_apart (h hc)]; rfl
  rw [signsOfChars, Piece.ofChars, hno]
  exact flatMap_signs_consLiteral c _

/-- A sigil with a word behind it is a placeholder, which is as long as it can be. -/
theorem signsOfChars_cons_of_sigil {c : Char} {cs : List Char} (hc : Piece.isSigil c = true)
    (h : cs.takeWhile Piece.isTokenChar ≠ []) :
    signsOfChars (c :: cs) =
      .placeholder (String.ofList (c :: cs.takeWhile Piece.isTokenChar)) ::
        signsOfChars (cs.dropWhile Piece.isTokenChar) := by
  have hyes : (Piece.isSigil c && !(cs.takeWhile Piece.isTokenChar).isEmpty) = true := by
    rw [hc]
    simpa using h
  rw [signsOfChars, Piece.ofChars, if_pos hyes]
  rfl

/-- Characters without sigils are read as themselves, in front of anything. -/
theorem signs_literal_append {cs : List Char} (h : ∀ c ∈ cs, Piece.isSigil c = false)
    (rest : List Char) : signsOfChars (cs ++ rest) = cs.map .char ++ signsOfChars rest := by
  induction cs with
  | nil => rfl
  | cons c cs ih =>
    have hc : Piece.isSigil c = false := h c (List.mem_cons_self ..)
    rw [List.cons_append, signsOfChars_cons_of_apart (by simp [hc]),
      ih fun x hx => h x (List.mem_cons_of_mem _ hx)]
    rfl

/-- A placeholder is read whole if what follows is apart from it. -/
theorem signs_token_append {t : String} (ht : IsToken t) {rest : List Char} (h : Apart rest) :
    signsOfChars (t.toList ++ rest) = .placeholder t :: signsOfChars rest := by
  obtain ⟨c, w, htext, hc, hne, hw⟩ := ht
  have htake : (w ++ rest).takeWhile Piece.isTokenChar = w := takeWhile_append_of_apart hw h
  rw [htext, List.cons_append, signsOfChars_cons_of_sigil hc (by rw [htake]; exact hne), htake,
    dropWhile_append_of_apart hw h, ← htext, String.ofList_toList]

/-- A placeholder on its own is one sign. -/
theorem signs_token {t : String} (ht : IsToken t) : signs t = [.placeholder t] := by
  have h := signs_token_append ht apart_nil
  rwa [List.append_nil, signsOfChars_nil] at h

/-! ## Legal signs -/

/-- Signs that are read again as they were written. -/
def Legal : List (Sign String) → Prop
  | [] => True
  | .char c :: rest => (Piece.isSigil c = true → Apart (spell rest)) ∧ Legal rest
  | .placeholder t :: rest => IsToken t ∧ Apart (spell rest) ∧ Legal rest

@[simp] theorem spell_nil : spell [] = [] := rfl

@[simp] theorem spell_char (c : Char) (ss : List (Sign String)) :
    spell (.char c :: ss) = c :: spell ss := rfl

@[simp] theorem spell_placeholder (t : String) (ss : List (Sign String)) :
    spell (.placeholder t :: ss) = t.toList ++ spell ss := rfl

/-- Reading legal signs gives them back. -/
theorem signs_spell {ss : List (Sign String)} (h : Legal ss) : signsOfChars (spell ss) = ss := by
  induction ss with
  | nil => simp
  | cons s rest ih =>
    cases s with
    | char c => rw [spell_char, signsOfChars_cons_of_apart h.1, ih h.2]
    | placeholder t => rw [spell_placeholder, signs_token_append h.1 h.2.1, ih h.2.2]

/-- What is read is legal, and writing it down gives the characters back. -/
theorem spell_signs_and_legal (cs : List Char) :
    spell (signsOfChars cs) = cs ∧ Legal (signsOfChars cs) := by
  fun_induction Piece.ofChars cs with
  | case1 => simp [Legal]
  | case2 c rest h ih =>
    rw [Bool.and_eq_true] at h
    have hne : rest.takeWhile Piece.isTokenChar ≠ [] := by simpa using h.2
    have htake : ∀ x ∈ rest.takeWhile Piece.isTokenChar, Piece.isTokenChar x = true := fun x hx =>
      List.all_eq_true.1 List.all_takeWhile x hx
    rw [signsOfChars_cons_of_sigil h.1 hne]
    refine ⟨?_, ⟨c, _, String.toList_ofList, h.1, hne, htake⟩, ?_, ih.2⟩
    · rw [spell_placeholder, ih.1, String.toList_ofList, List.cons_append,
        List.takeWhile_append_dropWhile]
    · rw [ih.1]
      exact apart_dropWhile rest
  | case3 c rest h ih =>
    have hap : Piece.isSigil c = true → Apart rest := by
      intro hc
      rw [hc, Bool.true_and, Bool.not_eq_true, Bool.not_eq_false', List.isEmpty_iff] at h
      exact apart_of_takeWhile_eq_nil h
    rw [signsOfChars_cons_of_apart hap]
    refine ⟨by rw [spell_char, ih.1], ?_, ih.2⟩
    rw [ih.1]
    exact hap

/-- Writing down the signs of a text gives the text back. -/
theorem spell_signs (cs : List Char) : spell (signsOfChars cs) = cs := (spell_signs_and_legal cs).1

/-- What is read of a text is legal. -/
theorem legal_signs (cs : List Char) : Legal (signsOfChars cs) := (spell_signs_and_legal cs).2

/-- Texts with the same signs are the same. -/
theorem eq_of_signs_eq {t u : String} (h : signs t = signs u) : t = u := by
  rw [← String.ofList_toList (s := t), ← String.ofList_toList (s := u), ← spell_signs t.toList,
    ← spell_signs u.toList]
  exact congrArg (fun ss => String.ofList (spell ss)) h

/-! ## Placeholders and their renaming -/

theorem tokensOf_eq (text : String) : tokensOf text = (signs text).filterMap Sign.placeholder? := by
  rw [tokensOf, signs, signsOfChars, List.filterMap_flatMap]
  induction Piece.ofChars text.toList with
  | nil => rfl
  | cons p ps ih =>
    cases p with
    | literal cs =>
      have hnone : (cs.map (Sign.char (α := String))).filterMap Sign.placeholder? = [] := by
        simp [Function.comp_def, Sign.placeholder?]
      rw [List.filterMap_cons, List.flatMap_cons, Piece.signs, hnone, List.nil_append]
      exact ih
    | token cs =>
      rw [List.filterMap_cons, List.flatMap_cons, Piece.signs]
      exact congrArg _ ih

theorem tokensOf_token {t : String} (ht : IsToken t) : tokensOf t = [t] := by
  rw [tokensOf_eq, signs_token ht]
  rfl

/-- The placeholders of a text are those among its signs. -/
theorem mem_tokensOf {t text : String} : t ∈ tokensOf text ↔ .placeholder t ∈ signs text := by
  rw [tokensOf_eq, List.mem_filterMap]
  constructor
  · rintro ⟨s, hs, hst⟩
    cases s with
    | char c => cases hst
    | placeholder u => cases hst; exact hs
  · intro h
    exact ⟨_, h, rfl⟩

/-- A placeholder in legal signs has the shape of one. -/
theorem isToken_of_legal {t : String} {ss : List (Sign String)} (h : Legal ss)
    (ht : .placeholder t ∈ ss) : IsToken t := by
  induction ss with
  | nil => cases ht
  | cons s rest ih =>
    cases s with
    | char c =>
      rcases List.mem_cons.1 ht with e | ht
      · cases e
      · exact ih h.2 ht
    | placeholder u =>
      rcases List.mem_cons.1 ht with e | ht
      · cases e; exact h.1
      · exact ih h.2.2 ht

theorem isToken_of_mem {t text : String} (h : t ∈ tokensOf text) : IsToken t :=
  isToken_of_legal (legal_signs text.toList) (mem_tokensOf.1 h)

/-- To rename the placeholders of a text is to rename those of its signs and write them down. -/
theorem renameTokens_eq (f : String → String) (text : String) :
    renameTokens f text = String.ofList (spell ((signs text).map (Sign.map f))) := by
  rw [renameTokens, signs, signsOfChars]
  congr 1
  induction Piece.ofChars text.toList with
  | nil => rfl
  | cons p ps ih =>
    rw [List.flatMap_cons, List.flatMap_cons, List.map_append, spell, List.flatMap_append, ih]
    congr 1
    cases p with
    | literal cs =>
      induction cs with
      | nil => rfl
      | cons c cs ih => simpa [Piece.rename, Piece.signs, Sign.chars] using ih
    | token cs => simp [Piece.rename, Piece.signs, Sign.chars]

/-- Signs stay apart from a word when they are renamed: a placeholder begins with a sigil. -/
theorem apart_spell_map {f : String → String} {ss : List (Sign String)}
    (hf : ∀ t, .placeholder t ∈ ss → IsToken (f t)) (h : Apart (spell ss)) :
    Apart (spell (ss.map (Sign.map f))) := by
  cases ss with
  | nil => simp
  | cons s rest =>
    cases s with
    | char c => exact apart_cons.2 (apart_cons.1 h)
    | placeholder t => exact (hf t (List.mem_cons_self ..)).apart _

/-- Signs stay legal when their placeholders are renamed to others. -/
theorem Legal.map {f : String → String} {ss : List (Sign String)} (h : Legal ss)
    (hf : ∀ t, .placeholder t ∈ ss → IsToken (f t)) : Legal (ss.map (Sign.map f)) := by
  induction ss with
  | nil => trivial
  | cons s rest ih =>
    have hrest : ∀ t, .placeholder t ∈ rest → IsToken (f t) := fun t ht =>
      hf t (List.mem_cons_of_mem _ ht)
    cases s with
    | char c => exact ⟨fun hc => apart_spell_map hrest (h.1 hc), ih h.2 hrest⟩
    | placeholder t =>
      exact ⟨hf t (List.mem_cons_self ..), apart_spell_map hrest h.2.1, ih h.2.2 hrest⟩

/-- Renaming the placeholders of a text renames its signs: no new name runs into its neighbours. -/
theorem signs_renameTokens {f : String → String} {text : String}
    (hf : ∀ t ∈ tokensOf text, IsToken (f t)) :
    signs (renameTokens f text) = (signs text).map (Sign.map f) := by
  rw [renameTokens_eq, signs, String.toList_ofList]
  exact signs_spell ((legal_signs text.toList).map fun t ht => hf t (mem_tokensOf.2 ht))

/-- The placeholders of a renamed text are the renamed placeholders. -/
theorem tokensOf_renameTokens {f : String → String} {text : String}
    (hf : ∀ t ∈ tokensOf text, IsToken (f t)) :
    tokensOf (renameTokens f text) = (tokensOf text).map f := by
  rw [tokensOf_eq, tokensOf_eq, signs_renameTokens hf, List.filterMap_map, List.map_filterMap]
  congr 1
  funext s
  cases s <;> rfl

end ItemStore
