/-!
# Placeholder tokens

An expression names attributes and values by placeholders: a sigil, `#` for a name and `:` for a
value, and letters, digits and underscores after it.  `pieces` cuts the text of an expression into
placeholders, each as long as it can be, and the literal text between them.  `TokenSource` hands out
fresh words for placeholders: a fixed stem followed by the lower case words in order.
-/

namespace ItemStore

/-! ## Cutting text into pieces -/

/-- A piece of an expression text. -/
inductive Piece where
  /-- Text that stands for itself. -/
  | literal (text : List Char)
  /-- A placeholder, with its sigil. -/
  | token (text : List Char)
deriving DecidableEq, Repr

namespace Piece

/-- Whether a character may stand in a placeholder after its sigil. -/
def isTokenChar (c : Char) : Bool :=
  ('a' ≤ c && c ≤ 'z') || ('A' ≤ c && c ≤ 'Z') || ('0' ≤ c && c ≤ '9') || c == '_'

/-- Whether a character begins a placeholder. -/
def isSigil (c : Char) : Bool := c == '#' || c == ':'

/-- The characters of a piece. -/
def chars : Piece → List Char
  | .literal text => text
  | .token text => text

/-- Put a literal character in front of pieces. -/
def consLiteral (c : Char) : List Piece → List Piece
  | .literal text :: rest => .literal (c :: text) :: rest
  | pieces => .literal [c] :: pieces

/-- Cut text into its pieces. -/
def ofChars : List Char → List Piece
  | [] => []
  | c :: rest =>
    if isSigil c && !(rest.takeWhile isTokenChar).isEmpty then
      .token (c :: rest.takeWhile isTokenChar) :: ofChars (rest.dropWhile isTokenChar)
    else consLiteral c (ofChars rest)
termination_by text => text.length
decreasing_by
  · have := (List.dropWhile_suffix isTokenChar (l := rest)).length_le
    simp only [List.length_cons]
    omega
  · simp

/-- The text of a placeholder. -/
def token? : Piece → Option String
  | .token text => some (String.ofList text)
  | .literal _ => none

/-- A piece with its placeholder renamed. -/
def rename (f : String → String) : Piece → List Char
  | .literal text => text
  | .token text => (f (String.ofList text)).toList

end Piece

/-- The placeholders of a text, in order. -/
def tokensOf (text : String) : List String := (Piece.ofChars text.toList).filterMap Piece.token?

/-- A text with each of its placeholders renamed. -/
def renameTokens (f : String → String) (text : String) : String :=
  String.ofList ((Piece.ofChars text.toList).flatMap (Piece.rename f))

/-! ## Fresh words -/

/-- The `n`-th lower case word, counted from one, in the order of length and then of the alphabet:
`n` in base twenty-six with the letters as digits one to twenty-six. -/
def word (n : Nat) : List Char :=
  if n = 0 then []
  else word ((n - 1) / 26) ++ [Char.ofNat ('a'.toNat + (n - 1) % 26)]
termination_by n
decreasing_by omega

/-- A supply of fresh words. -/
structure TokenSource where
  /-- What every word begins with. -/
  stem : String
  /-- How many words have been handed out. -/
  issued : Nat
deriving DecidableEq, Repr

namespace TokenSource

/-- A fresh supply of words with a stem. -/
def new (stem : String) : TokenSource := ⟨stem, 0⟩

/-- The `n`-th word of a supply. -/
def nth (s : TokenSource) (n : Nat) : String := s.stem ++ String.ofList (word n)

/-- The next word. -/
def next (s : TokenSource) : String × TokenSource :=
  (s.nth (s.issued + 1), { s with issued := s.issued + 1 })

/-- The next `n` words. -/
def take (s : TokenSource) : Nat → List String × TokenSource
  | 0 => ([], s)
  | n + 1 =>
    let (first, s') := s.next
    let (more, s'') := take s' n
    (first :: more, s'')

/-- The last of the next `n` words. -/
def skip (s : TokenSource) (n : Nat) : Option String × TokenSource :=
  (if n = 0 then none else some (s.nth (s.issued + n)), { s with issued := s.issued + n })

/-- Start over with the first word. -/
def reset (s : TokenSource) : TokenSource := { s with issued := 0 }

/-- Start over with the first word of another stem. -/
def restart (_ : TokenSource) (stem : String) : TokenSource := .new stem

end TokenSource

end ItemStore
