import ItemStore.Proofs.Expression.Pieces
import ItemStore.Proofs.Text.Utf8

/-!
# Cutting bytes

Sigils, letters, digits and underscores are below 128, so the pieces of a text can be found in its
UTF-8 bytes without reading any character.  `BytePiece.cut` does so with two cursors: it looks at
one byte after another and keeps the bytes that it has passed since the last placeholder.

* `bytesOf_takeWhile`, `bytesOf_dropWhile`: the bytes of a word are those of its characters.
* `BytePiece.cut_bytesOf`: whatever was passed, the cut of the bytes is the cut of the characters,
  in bytes.  The induction is on the pieces that are still to come, with what was passed general.
* `pieces_exact` says what the pieces of a text are, that no cut falls into a character, and how
  they follow a renaming.
-/

namespace ItemStore

open Utf8 (bytesOf)

/-- A piece of the bytes of an expression text. -/
inductive BytePiece where
  /-- Bytes that stand for themselves. -/
  | literal (bytes : List UInt8)
  /-- The bytes of a placeholder, with its sigil. -/
  | token (bytes : List UInt8)
deriving DecidableEq, Repr

/-- A piece in bytes. -/
def Piece.inBytes : Piece → BytePiece
  | .literal text => .literal (bytesOf text)
  | .token text => .token (bytesOf text)

namespace BytePiece

/-! ## Bytes -/

/-- Whether a byte may stand in a placeholder after its sigil. -/
def isTokenByte (b : UInt8) : Bool :=
  (0x61 ≤ b && b ≤ 0x7a) || (0x41 ≤ b && b ≤ 0x5a) || (0x30 ≤ b && b ≤ 0x39) || b == 0x5f

/-- Whether a byte begins a placeholder. -/
def isSigilByte (b : UInt8) : Bool := b == 0x23 || b == 0x3a

/-- The literal text that was passed, if there is any; it is kept in reverse. -/
def passed (read : List UInt8) : List BytePiece :=
  if read.isEmpty then [] else [.literal read.reverse]

/-- Cut bytes into pieces, with the literal bytes before them. -/
def cut (read : List UInt8) : List UInt8 → List BytePiece
  | [] => passed read
  | b :: rest =>
    if isSigilByte b && rest.head?.any isTokenByte then
      passed read ++ .token (b :: rest.takeWhile isTokenByte) :: cut [] (rest.dropWhile isTokenByte)
    else cut (b :: read) rest
termination_by bytes => bytes.length
decreasing_by
  · have := (List.dropWhile_suffix isTokenByte (l := rest)).length_le
    simp only [List.length_cons]
    omega
  · simp

/-! ## Bytes of characters -/

theorem isTokenByte_ofNat {n : Nat} (h : n < 128) :
    isTokenByte (UInt8.ofNat n) = Piece.isTokenChar (Char.ofNat n) := by
  revert n
  decide

theorem isSigilByte_ofNat {n : Nat} (h : n < 128) :
    isSigilByte (UInt8.ofNat n) = Piece.isSigil (Char.ofNat n) := by
  revert n
  decide

/-- What is looked for is below 128. -/
theorem high_byte {b : UInt8} (h : 128 ≤ b.toNat) :
    isTokenByte b = false ∧ isSigilByte b = false := by
  have hle (d : UInt8) (hd : d.toNat < 128) : ¬ b ≤ d := by
    intro hbd
    have : b.toNat ≤ d.toNat := hbd
    omega
  have hne (d : UInt8) (hd : d.toNat < 128) : b ≠ d := by
    rintro rfl
    omega
  constructor
  · simp [isTokenByte, hle 0x7a (by decide), hle 0x5a (by decide), hle 0x39 (by decide),
      hne 0x5f (by decide)]
  · simp [isSigilByte, hne 0x23 (by decide), hne 0x3a (by decide)]

theorem high_char {c : Char} (h : 128 ≤ c.toNat) :
    Piece.isTokenChar c = false ∧ Piece.isSigil c = false := by
  have hle (d : Char) (hd : d.toNat < 128) : ¬ c ≤ d := by
    intro hcd
    have : c.toNat ≤ d.toNat := hcd
    omega
  have hne (d : Char) (hd : d.toNat < 128) : c ≠ d := by
    rintro rfl
    omega
  constructor
  · simp [Piece.isTokenChar, hle 'z' (by decide), hle 'Z' (by decide), hle '9' (by decide),
      hne '_' (by decide)]
  · simp [Piece.isSigil, hne '#' (by decide), hne ':' (by decide)]

/-- The bytes of a character are for words if the character is. -/
theorem token_charBytes (c : Char) :
    ∀ b ∈ String.utf8EncodeChar c, isTokenByte b = Piece.isTokenChar c := by
  intro b hb
  rcases Utf8.charBytes_cases c with ⟨hlow, hbytes⟩ | ⟨hhigh, hbytes⟩
  · rw [hbytes, List.mem_singleton] at hb
    rw [hb, isTokenByte_ofNat hlow, Char.ofNat_toNat]
  · rw [(high_byte (hbytes b hb)).1, (high_char hhigh).1]

theorem takeWhile_bytesOf (cs : List Char) :
    (bytesOf cs).takeWhile isTokenByte = bytesOf (cs.takeWhile Piece.isTokenChar) := by
  induction cs with
  | nil => rfl
  | cons c cs ih =>
    rw [Utf8.bytesOf_cons]
    by_cases hc : Piece.isTokenChar c = true
    · rw [List.takeWhile_append_of_pos, ih, List.takeWhile_cons_of_pos hc, Utf8.bytesOf_cons]
      intro b hb
      rw [token_charBytes c b hb, hc]
    · rw [List.takeWhile_cons_of_neg hc, Utf8.bytesOf_nil]
      obtain ⟨b, more, hbytes⟩ := List.exists_cons_of_ne_nil (Utf8.charBytes_ne_nil c)
      rw [hbytes, List.cons_append, List.takeWhile_cons_of_neg]
      rw [token_charBytes c b (by simp [hbytes])]
      exact hc

theorem dropWhile_bytesOf (cs : List Char) :
    (bytesOf cs).dropWhile isTokenByte = bytesOf (cs.dropWhile Piece.isTokenChar) := by
  have hchars := List.takeWhile_append_dropWhile (p := Piece.isTokenChar) (l := cs)
  have hbytes := congrArg bytesOf hchars
  rw [Utf8.bytesOf_append, ← takeWhile_bytesOf] at hbytes
  have hsame := List.takeWhile_append_dropWhile (p := isTokenByte) (l := bytesOf cs)
  exact List.append_cancel_left (hsame.trans hbytes.symm)

/-- A word begins with the next byte if it begins with the next character. -/
theorem any_head_bytesOf (cs : List Char) :
    (bytesOf cs).head?.any isTokenByte = !(cs.takeWhile Piece.isTokenChar).isEmpty := by
  cases cs with
  | nil => rfl
  | cons c cs =>
    obtain ⟨b, more, hbytes⟩ := List.exists_cons_of_ne_nil (Utf8.charBytes_ne_nil c)
    rw [Utf8.bytesOf_cons, hbytes]
    show isTokenByte b = _
    rw [token_charBytes c b (by simp [hbytes]), List.takeWhile_cons]
    by_cases hc : Piece.isTokenChar c = true
    · simp [hc]
    · simp [hc]

/-! ## Cutting -/

/-- A character that begins no placeholder is passed. -/
theorem cut_char {c : Char} {rest : List Char}
    (h : (Piece.isSigil c && !(rest.takeWhile Piece.isTokenChar).isEmpty) = false)
    (read : List UInt8) :
    cut read (String.utf8EncodeChar c ++ bytesOf rest) =
      cut ((String.utf8EncodeChar c).reverse ++ read) (bytesOf rest) := by
  rcases Utf8.charBytes_cases c with ⟨hlow, hbytes⟩ | ⟨-, hbytes⟩
  · have hno : (isSigilByte (UInt8.ofNat c.toNat) && (bytesOf rest).head?.any isTokenByte) =
        false := by
      rw [isSigilByte_ofNat hlow, any_head_bytesOf, Char.ofNat_toNat]
      exact h
    rw [hbytes, List.singleton_append, cut, hno]
    rfl
  · generalize String.utf8EncodeChar c = bytes at hbytes
    induction bytes generalizing read with
    | nil => rfl
    | cons b bytes ih =>
      have hb := (high_byte (hbytes b (List.mem_cons_self ..))).2
      rw [List.cons_append, cut, hb, Bool.false_and, if_neg Bool.false_ne_true,
        ih _ fun x hx => hbytes x (List.mem_cons_of_mem _ hx)]
      simp

/-- What was passed becomes a piece in front of a placeholder, and at the end. -/
theorem passed_bytesOf (read : List Char) {ps : List Piece}
    (h : ∀ p ∈ ps.head?, p.isLiteral = false) :
    (read.foldr Piece.consLiteral ps).map Piece.inBytes =
      passed (bytesOf read).reverse ++ ps.map Piece.inBytes := by
  cases read with
  | nil => rfl
  | cons c read =>
    have hliteral : (c :: read).foldr Piece.consLiteral ps = .literal (c :: read) :: ps :=
      Piece.foldr_consLiteral (List.cons_ne_nil c read) h
    have hne : (bytesOf (c :: read)).reverse ≠ [] := by
      simp [Utf8.bytesOf_cons]
    rw [hliteral, passed, if_neg (by simpa using hne), List.reverse_reverse]
    rfl

/-- A placeholder is cut out, with its whole word. -/
theorem cut_token {c : Char} {rest : List Char}
    (h : (Piece.isSigil c && !(rest.takeWhile Piece.isTokenChar).isEmpty) = true)
    (read : List UInt8) :
    cut read (bytesOf (c :: rest)) =
      passed read ++ .token (bytesOf (c :: rest.takeWhile Piece.isTokenChar)) ::
        cut [] (bytesOf (rest.dropWhile Piece.isTokenChar)) := by
  have hlow : c.toNat < 128 := by
    by_contra hhigh
    rw [(high_char (Nat.le_of_not_lt hhigh)).2] at h
    cases h
  have hbytes : String.utf8EncodeChar c = [UInt8.ofNat c.toNat] := by
    rcases Utf8.charBytes_cases c with ⟨-, hbytes⟩ | ⟨hhigh, -⟩
    · exact hbytes
    · omega
  have hyes : (isSigilByte (UInt8.ofNat c.toNat) && (bytesOf rest).head?.any isTokenByte) =
      true := by
    rw [isSigilByte_ofNat hlow, any_head_bytesOf, Char.ofNat_toNat]
    exact h
  rw [Utf8.bytesOf_cons, Utf8.bytesOf_cons, hbytes, List.singleton_append, cut, if_pos hyes,
    takeWhile_bytesOf, dropWhile_bytesOf]
  rfl

/-- Cutting the bytes of characters, whatever characters were passed before. -/
theorem cut_bytesOf (read cs : List Char) :
    cut (bytesOf read).reverse (bytesOf cs) =
      (read.foldr Piece.consLiteral (Piece.ofChars cs)).map Piece.inBytes := by
  fun_induction Piece.ofChars cs generalizing read with
  | case1 =>
    rw [passed_bytesOf read (by simp), Utf8.bytesOf_nil, cut]
    simp
  | case2 c rest h ih =>
    have hrest := ih []
    rw [Utf8.bytesOf_nil, List.reverse_nil, List.foldr_nil] at hrest
    rw [cut_token h, passed_bytesOf read (by simp [Piece.isLiteral]), List.map_cons, hrest]
    rfl
  | case3 c rest h ih =>
    have hpassed := cut_char (eq_false_of_ne_true h) (bytesOf read).reverse
    have hmore := ih (read ++ [c])
    rw [Utf8.bytesOf_append, List.reverse_append, List.foldr_append] at hmore
    rw [Utf8.bytesOf_cons, hpassed]
    simpa [bytesOf] using hmore

/-- No cut falls into a character. -/
theorem cut_encode (text : String) :
    cut [] (Utf8.encode text) = (Piece.ofChars text.toList).map Piece.inBytes := by
  rw [Utf8.encode_eq]
  exact cut_bytesOf [] text.toList

end BytePiece

/-! ## Pieces -/

namespace Piece

/-- **The pieces of a text.**

A text is cut in exactly one way into pieces that are the text behind one another, where a
placeholder is cut out wherever a sigil with a word behind it stands and cannot be longer, and
nowhere else, and literal text is neither empty nor next to literal text.  Cutting its bytes one by
one gives the same pieces, so no cut falls into a character.  Where the placeholders are renamed to
placeholders of any length, the pieces of the new text are the pieces of the old one with the new
names. -/
theorem pieces_exact (text : String) :
    (∀ ps, Cuts text.toList ps ↔ ps = ofChars text.toList) ∧
      BytePiece.cut [] (Utf8.encode text) = (ofChars text.toList).map inBytes ∧
      ∀ f : String → String, (∀ t ∈ tokensOf text, IsToken (f t)) →
        ofChars (renameTokens f text).toList = (ofChars text.toList).map (renamed f) := by
  refine ⟨?_, BytePiece.cut_encode text, ?_⟩
  · intro ps
    exact cuts_iff
  · intro f hf
    exact ofChars_renameTokens hf

/-- A longer name for one placeholder and a shorter one for all others. -/
def longAndShort (t : String) : String := if t = "#a" then ":long_name" else "#n"

/-- A doubled sigil, placeholders side by side, longer characters next to them and a sigil at the
end. -/
theorem pieces_exact_crowded :
    Cuts "é##a:b_1€:x#".toList [.literal "é#".toList, .token "#a".toList, .token ":b_1".toList,
        .literal "€".toList, .token ":x".toList, .literal "#".toList] ∧
      (∀ t ∈ tokensOf "é##a:b_1€:x#", IsToken (longAndShort t)) ∧
      ofChars (renameTokens longAndShort "é##a:b_1€:x#").toList =
        [.literal "é#".toList, .token ":long_name".toList, .token "#n".toList,
          .literal "€".toList, .token "#n".toList, .literal "#".toList] := by
  have htokens : ∀ t, IsToken (longAndShort t) := by
    intro t
    unfold longAndShort
    by_cases h : t = "#a"
    · rw [if_pos h]
      exact ⟨':', "long_name".toList, by decide, by decide, by decide, by decide⟩
    · rw [if_neg h]
      exact ⟨'#', "n".toList, by decide, by decide, by decide, by decide⟩
  obtain ⟨hcuts, -, hrenamed⟩ := pieces_exact "é##a:b_1€:x#"
  refine ⟨(hcuts _).2 (by decide +kernel), fun t _ => htokens t, ?_⟩
  rw [hrenamed longAndShort fun t _ => htokens t]
  decide +kernel

end Piece

end ItemStore
