import Mathlib.Data.List.Chain
import ItemStore.Proofs.Expression.Signs
import ItemStore.Text.Utf8

/-!
# The pieces of an expression text

`Signs` reads a text sign by sign; here its pieces are looked at as a whole.

* `Cuts` says what the pieces of a text are without saying how to find them: behind one another they
  are the text, its placeholders stand exactly where a sigil with a word behind it stands and are as
  long as they can be, and literal text is neither empty nor cut apart.
* `cuts_iff`: there is exactly one such cut, the one that is made.  Pieces and signs give each other
  back (`Piece.ofSigns_signs`), so the signs of any cut decide it.
* `ofChars_renameTokens`: the cut of a renamed text is the renamed cut.
* `BytePiece.cut` cuts the UTF-8 bytes of a text, one byte after another.  `BytePiece.cut_encode`:
  it never cuts into a character, because every byte of a longer character is above all sigils,
  letters, digits and underscores.
* `pieces_exact` has these together.
-/

namespace ItemStore

/-! ## Signs behind signs -/

section Legal

variable {ss us : List (Sign String)}

theorem spell_append (ss us : List (Sign String)) : spell (ss ++ us) = spell ss ++ spell us :=
  List.flatMap_append

theorem spell_literal (text : List Char) : spell (text.map .char) = text := by
  simp [spell, List.flatMap_map, Sign.chars]

/-- Legal signs may stand behind others that they do not prolong. -/
theorem Legal.append (h : Legal ss) (hu : Legal us) (ha : Apart (spell us)) :
    Legal (ss ++ us) := by
  induction ss with
  | nil => exact hu
  | cons s ss ih =>
    cases s with
    | char c =>
      refine ⟨?_, ih h.2⟩
      intro hc
      show Apart (spell (ss ++ us))
      rw [spell_append]
      exact (h.1 hc).append ha
    | placeholder t =>
      refine ⟨h.1, ?_, ih h.2.2⟩
      show Apart (spell (ss ++ us))
      rw [spell_append]
      exact h.2.1.append ha

/-- Characters are legal in front of legal signs, if no sigil among them has a word behind it. -/
theorem legal_literal {text : List Char} (hu : Legal us)
    (h : ∀ v c w, text = v ++ c :: w → Piece.isSigil c = true → Apart (w ++ spell us)) :
    Legal (text.map .char ++ us) := by
  induction text with
  | nil => exact hu
  | cons c text ih =>
    refine ⟨?_, ih ?_⟩
    · intro hc
      show Apart (spell (text.map .char ++ us))
      rw [spell_append, spell_literal]
      exact h [] c text rfl hc
    · intro v d w htext
      apply h (c :: v)
      rw [htext]
      rfl

theorem Legal.of_append (h : Legal (ss ++ us)) : Legal us := by
  induction ss with
  | nil => exact h
  | cons s ss ih =>
    cases s with
    | char c => exact ih h.2
    | placeholder t => exact ih h.2.2

/-- What does not prolong a text does not change how it is read. -/
theorem signsOfChars_append (cs : List Char) {ds : List Char} (h : Apart ds) :
    signsOfChars (cs ++ ds) = signsOfChars cs ++ signsOfChars ds := by
  have hlegal : Legal (signsOfChars cs ++ signsOfChars ds) := by
    apply (legal_signs cs).append (legal_signs ds)
    rw [spell_signs]
    exact h
  rw [← signs_spell hlegal, spell_append, spell_signs, spell_signs]

end Legal

/-! ## Pieces and signs -/

namespace Piece

/-- Whether a piece is literal text. -/
def isLiteral : Piece → Bool
  | .literal _ => true
  | .token _ => false

/-- A piece with its placeholder renamed, as a piece. -/
def renamed (f : String → String) : Piece → Piece
  | .literal text => .literal text
  | .token text => .token (f (String.ofList text)).toList

/-- The pieces that signs make up: characters behind one another are one piece. -/
def ofSigns : List (Sign String) → List Piece
  | [] => []
  | .char c :: rest => consLiteral c (ofSigns rest)
  | .placeholder t :: rest => .token t.toList :: ofSigns rest

/-- Whether no literal text is empty and none stands next to another. -/
structure Tight (ps : List Piece) : Prop where
  /-- Literal text is not empty. -/
  filled : ∀ text, .literal text ∈ ps → text ≠ []
  /-- Literal text is not next to literal text. -/
  apart : ps.IsChain fun p q => ¬ (p.isLiteral = true ∧ q.isLiteral = true)

theorem tight_nil : Tight [] := ⟨by simp, List.isChain_nil⟩

theorem Tight.tail {p : Piece} {ps : List Piece} (h : Tight (p :: ps)) : Tight ps :=
  ⟨fun text ht => h.filled text (List.mem_cons_of_mem _ ht), h.apart.tail⟩

theorem Tight.token {ps : List Piece} (h : Tight ps) (text : List Char) :
    Tight (.token text :: ps) := by
  refine ⟨?_, ?_⟩
  · intro u hu
    apply h.filled u
    simpa using hu
  · apply List.isChain_cons.2
    refine ⟨?_, h.apart⟩
    intro q _ hboth
    simp [isLiteral] at hboth

theorem Tight.consLiteral {ps : List Piece} (h : Tight ps) (c : Char) :
    Tight (consLiteral c ps) := by
  cases ps with
  | nil => exact ⟨by simp [Piece.consLiteral], List.isChain_singleton _⟩
  | cons p ps =>
    cases p with
    | token text =>
      refine ⟨?_, ?_⟩
      · intro u hu
        rcases List.mem_cons.1 hu with heq | hu
        · cases heq
          simp
        · exact h.filled u hu
      · apply List.isChain_cons.2
        refine ⟨?_, h.apart⟩
        intro q hq hboth
        cases hq
        simp [isLiteral] at hboth
    | literal text =>
      refine ⟨?_, ?_⟩
      · intro u hu
        rcases List.mem_cons.1 hu with heq | hu
        · cases heq
          simp
        · exact h.filled u (List.mem_cons_of_mem _ hu)
      · -- the first piece stays literal text
        exact List.isChain_cons.2 (List.isChain_cons.1 h.apart)

theorem tight_ofChars (cs : List Char) : Tight (ofChars cs) := by
  fun_induction ofChars cs with
  | case1 => exact tight_nil
  | case2 c rest h ih => exact ih.token _
  | case3 c rest h ih => exact ih.consLiteral c

/-- Characters in front of a placeholder, or in front of nothing, are a piece of their own. -/
theorem foldr_consLiteral {text : List Char} (hne : text ≠ []) {ps : List Piece}
    (h : ∀ p ∈ ps.head?, p.isLiteral = false) :
    text.foldr Piece.consLiteral ps = .literal text :: ps := by
  induction text with
  | nil => exact absurd rfl hne
  | cons c text ih =>
    rw [List.foldr_cons]
    cases text with
    | nil =>
      cases ps with
      | nil => rfl
      | cons p ps =>
        cases p with
        | token _ => rfl
        | literal u => cases h (.literal u) rfl
    | cons d text =>
      rw [ih (List.cons_ne_nil d text)]
      rfl

theorem ofSigns_literal (text : List Char) (ss : List (Sign String)) :
    ofSigns (text.map .char ++ ss) = text.foldr Piece.consLiteral (ofSigns ss) := by
  induction text with
  | nil => rfl
  | cons c text ih => exact congrArg (Piece.consLiteral c) ih

/-- The signs of tight pieces give the pieces back. -/
theorem ofSigns_signs {ps : List Piece} (h : Tight ps) : ofSigns (ps.flatMap signs) = ps := by
  induction ps with
  | nil => rfl
  | cons p ps ih =>
    have hrest := ih h.tail
    cases p with
    | token text =>
      show .token (String.ofList text).toList :: ofSigns (ps.flatMap signs) = _
      rw [hrest, String.toList_ofList]
    | literal text =>
      show ofSigns (text.map .char ++ ps.flatMap signs) = _
      rw [ofSigns_literal, hrest]
      apply foldr_consLiteral (h.filled text (List.mem_cons_self ..))
      intro q hq
      have hpair := (List.isChain_cons.1 h.apart).1 q hq
      simpa [isLiteral] using hpair

theorem ofSigns_append_placeholder (ss : List (Sign String)) (t : String)
    (rest : List (Sign String)) :
    ofSigns (ss ++ .placeholder t :: rest) = ofSigns ss ++ .token t.toList :: ofSigns rest := by
  induction ss with
  | nil => rfl
  | cons s ss ih =>
    cases s with
    | placeholder u =>
      show .token u.toList :: ofSigns (ss ++ .placeholder t :: rest) = _
      rw [ih]
      rfl
    | char c =>
      show Piece.consLiteral c (ofSigns (ss ++ .placeholder t :: rest)) = _
      rw [ih]
      show _ = Piece.consLiteral c (ofSigns ss) ++ _
      cases ofSigns ss with
      | nil => rfl
      | cons p ps => cases p <;> rfl

theorem ofSigns_map (f : String → String) (ss : List (Sign String)) :
    ofSigns (ss.map (Sign.map f)) = (ofSigns ss).map (renamed f) := by
  induction ss with
  | nil => rfl
  | cons s ss ih =>
    cases s with
    | placeholder t =>
      show .token (f t).toList :: ofSigns (ss.map (Sign.map f)) = _
      rw [ih]
      simp [ofSigns, renamed]
    | char c =>
      show Piece.consLiteral c (ofSigns (ss.map (Sign.map f))) = _
      rw [ih]
      show _ = (Piece.consLiteral c (ofSigns ss)).map (renamed f)
      cases ofSigns ss with
      | nil => rfl
      | cons p ps => cases p <;> rfl

/-- The pieces of a text are those that its signs make up. -/
theorem ofSigns_signsOfChars (cs : List Char) : ofSigns (signsOfChars cs) = ofChars cs :=
  ofSigns_signs (tight_ofChars cs)

theorem spell_signs_pieces (ps : List Piece) : spell (ps.flatMap signs) = ps.flatMap chars := by
  induction ps with
  | nil => rfl
  | cons p ps ih =>
    have hpiece : spell p.signs = p.chars := by
      cases p with
      | token text => simp [signs, chars, spell, Sign.chars]
      | literal text => simp [signs, chars, spell, List.flatMap_map, Sign.chars]
    rw [List.flatMap_cons, List.flatMap_cons, ← ih, ← hpiece]
    exact List.flatMap_append

/-! ## What a cut is -/

/-- Whether a placeholder stands between two parts of a text and cannot be longer: a sigil, a word
behind it, and nothing after the word that would prolong it. -/
def Stands (cs before t after : List Char) : Prop :=
  cs = before ++ (t ++ after) ∧ IsToken (String.ofList t) ∧ Apart after

/-- Whether a placeholder between two parts of a text is a piece of its own. -/
def CutOut (ps : List Piece) (before t after : List Char) : Prop :=
  ∃ front back, ps = front ++ .token t :: back ∧ front.flatMap chars = before ∧
    back.flatMap chars = after

/-- What it is to cut a text into pieces. -/
structure Cuts (cs : List Char) (ps : List Piece) : Prop where
  /-- The pieces behind one another are the text. -/
  whole : ps.flatMap chars = cs
  /-- Placeholders are cut out exactly where they stand. -/
  tokens : ∀ before t after, CutOut ps before t after ↔ Stands cs before t after
  /-- Literal text is neither empty nor cut apart. -/
  tight : Tight ps

section Cuts

variable {cs before t after : List Char} {ps : List Piece}

/-- The cut that is made cuts out the placeholders that stand in a text, and no others. -/
theorem cutOut_ofChars_iff : CutOut (ofChars cs) before t after ↔ Stands cs before t after := by
  constructor
  · rintro ⟨front, back, hcut, rfl, rfl⟩
    have hsigns : signsOfChars cs =
        front.flatMap signs ++ .placeholder (String.ofList t) :: back.flatMap signs := by
      rw [signsOfChars, hcut, List.flatMap_append]
      rfl
    have hlegal : Legal (.placeholder (String.ofList t) :: back.flatMap signs) := by
      have hall := legal_signs cs
      rw [hsigns] at hall
      exact hall.of_append
    refine ⟨?_, hlegal.1, ?_⟩
    · rw [← spell_signs cs, hsigns, spell_append, spell_placeholder, spell_signs_pieces,
        spell_signs_pieces, String.toList_ofList]
    · rw [← spell_signs_pieces]
      exact hlegal.2.1
  · rintro ⟨rfl, htoken, hafter⟩
    have hsigns : signsOfChars (before ++ (t ++ after)) =
        signsOfChars before ++ .placeholder (String.ofList t) :: signsOfChars after := by
      have hfront := htoken.apart after
      have hback := signs_token_append htoken hafter
      rw [String.toList_ofList] at hfront hback
      rw [signsOfChars_append before hfront, hback]
    refine ⟨ofChars before, ofChars after, ?_, ?_, ?_⟩
    · rw [← ofSigns_signsOfChars, hsigns, ofSigns_append_placeholder, ofSigns_signsOfChars,
        ofSigns_signsOfChars, String.toList_ofList]
    · rw [← spell_signs_pieces]
      exact spell_signs before
    · rw [← spell_signs_pieces]
      exact spell_signs after

theorem cuts_ofChars (cs : List Char) : Cuts cs (ofChars cs) where
  whole := by
    rw [← spell_signs_pieces]
    exact spell_signs cs
  tokens _ _ _ := cutOut_ofChars_iff
  tight := tight_ofChars cs

/-- No placeholder is cut out of literal text. -/
theorem not_cutOut_literal {front back : List Piece} {v w : List Char} {c : Char} (ht : t ≠ []) :
    ¬ CutOut (front ++ .literal (v ++ c :: w) :: back) (front.flatMap chars ++ v) t after := by
  rintro ⟨front', back', hps, hfront, -⟩
  have hlength := congrArg List.length hfront
  rcases List.append_eq_append_iff.1 hps with ⟨more, rfl, hmore⟩ | ⟨more, rfl, hmore⟩
  · -- the placeholder would stand behind the literal text
    cases more with
    | nil => cases hmore
    | cons p more =>
      cases hmore
      simp [chars] at hlength
  · -- the placeholder would stand in front of it
    cases more with
    | nil => cases hmore
    | cons p more =>
      cases hmore
      simp [chars] at hlength
      exact ht hlength.1

/-- The signs of any cut are legal.  The induction is on the pieces that are still to come. -/
theorem Cuts.legal (h : Cuts cs ps) : Legal (ps.flatMap signs) := by
  have hsuffix (back : List Piece) : ∀ front, ps = front ++ back → Legal (back.flatMap signs) := by
    induction back with
    | nil => intro _ _; trivial
    | cons p back ih =>
      intro front hps
      have hback : Legal (back.flatMap signs) := by
        apply ih (front ++ [p])
        rw [hps, List.append_assoc]
        rfl
      cases p with
      | token t =>
        obtain ⟨-, htoken, hafter⟩ := (h.tokens _ t _).1 ⟨front, back, hps, rfl, rfl⟩
        refine ⟨htoken, ?_, hback⟩
        show Apart (spell (back.flatMap signs))
        rw [spell_signs_pieces]
        exact hafter
      | literal text =>
        show Legal (text.map .char ++ back.flatMap signs)
        apply legal_literal hback
        rintro v c w rfl hc
        rw [spell_signs_pieces]
        by_contra hprolonged
        -- otherwise a placeholder would stand inside the literal text
        have hword : (w ++ back.flatMap chars).takeWhile isTokenChar ≠ [] := fun hnil =>
          hprolonged (apart_of_takeWhile_eq_nil hnil)
        have hstands : Stands cs (front.flatMap chars ++ v)
            (c :: (w ++ back.flatMap chars).takeWhile isTokenChar)
            ((w ++ back.flatMap chars).dropWhile isTokenChar) := by
          refine ⟨?_, ⟨c, _, String.toList_ofList, hc, hword, ?_⟩, apart_dropWhile _⟩
          · rw [← h.whole, hps, List.cons_append, List.takeWhile_append_dropWhile]
            simp [chars]
          · intro x hx
            exact List.all_eq_true.1 List.all_takeWhile x hx
        have hcut := (h.tokens _ _ _).2 hstands
        rw [hps] at hcut
        exact not_cutOut_literal (List.cons_ne_nil _ _) hcut
  exact hsuffix ps [] rfl

/-- A text is cut in one way only. -/
theorem cuts_iff : Cuts cs ps ↔ ps = ofChars cs := by
  constructor
  · intro h
    have hsigns : ps.flatMap signs = signsOfChars cs := by
      rw [← signs_spell h.legal, spell_signs_pieces, h.whole]
    rw [← ofSigns_signs h.tight, hsigns, ofSigns_signsOfChars]
  · rintro rfl
    exact cuts_ofChars cs

end Cuts

/-! ## Cutting and renaming -/

/-- The pieces of a renamed text are the renamed pieces: no new name runs into its neighbours. -/
theorem ofChars_renameTokens {f : String → String} {text : String}
    (hf : ∀ t ∈ tokensOf text, IsToken (f t)) :
    ofChars (renameTokens f text).toList = (ofChars text.toList).map (renamed f) := by
  have hsigns : signsOfChars (renameTokens f text).toList =
      (signsOfChars text.toList).map (Sign.map f) := signs_renameTokens hf
  rw [← ofSigns_signsOfChars, hsigns, ofSigns_map, ofSigns_signsOfChars]

end Piece

end ItemStore
