import ItemStore.Number.Decimal

/-!
# The lexemes of JSON text

JSON text is read from bytes.  The first pass cuts it into lexemes: punctuation, the three words,
numbers and strings.  A string keeps its bytes and its escaped code units apart and is not decoded
yet, because text that nobody asks for need not be decodable; only its escapes must be complete.
-/

namespace ItemStore

namespace Json

/-- A piece of a string: a byte as it stood in the text, or an escaped UTF-16 code unit. -/
inductive StringUnit where
  | byte (b : UInt8)
  | codeUnit (n : Nat)
deriving DecidableEq

/-- A lexeme of JSON text. -/
inductive Lexeme where
  | openArray
  | closeArray
  | openObject
  | closeObject
  | comma
  | colon
  | null
  | bool (b : Bool)
  | number (literal : List Char)
  | string (units : List StringUnit)

/-- What the characters read last belong to; the parts read so far are kept in reverse. -/
inductive LexemeState where
  | between
  | inWord (letters : List Char)
  | inNumber (chars : List Char)
  | inString (units : List StringUnit)
  | afterBackslash (units : List StringUnit)
  | inCodeUnit (units : List StringUnit) (digits : List Nat)

namespace Lexeme

/-! ## Characters -/

/-- Whether a byte may stand between lexemes. -/
def isSpace (b : UInt8) : Bool := b == 0x20 || b == 0x09 || b == 0x0a || b == 0x0d

/-- Whether a byte is a small letter. -/
def isLetter (b : UInt8) : Bool := 0x61 ≤ b && b ≤ 0x7a

/-- Whether a byte may stand in a number. -/
def isNumberByte (b : UInt8) : Bool :=
  (0x30 ≤ b && b ≤ 0x39) || b == 0x2d || b == 0x2b || b == 0x2e || b == 0x65 || b == 0x45

/-- The value of a hexadecimal digit. -/
def hexValue? (b : UInt8) : Option Nat :=
  if 0x30 ≤ b && b ≤ 0x39 then some (b.toNat - 0x30)
  else if 0x61 ≤ b && b ≤ 0x66 then some (b.toNat - 0x61 + 10)
  else if 0x41 ≤ b && b ≤ 0x46 then some (b.toNat - 0x41 + 10)
  else none

/-- The byte that a letter after a backslash stands for. -/
def escaped? (b : UInt8) : Option UInt8 :=
  if b == 0x22 || b == 0x5c || b == 0x2f then some b
  else if b == 0x62 then some 0x08
  else if b == 0x66 then some 0x0c
  else if b == 0x6e then some 0x0a
  else if b == 0x72 then some 0x0d
  else if b == 0x74 then some 0x09
  else none

/-! ## Words and numbers -/

/-- The lexeme of a word. -/
def ofWord? (letters : List Char) : Option Lexeme :=
  if letters = "null".toList then some .null
  else if letters = "true".toList then some (.bool true)
  else if letters = "false".toList then some (.bool false)
  else none

/-- Whether digits are followed by nothing or by a complete power of ten. -/
def isExponent : List Char → Bool
  | [] => true
  | c :: rest =>
    (c == 'e' || c == 'E') &&
      (let digits := (splitSign rest).2
       !digits.isEmpty && digits.all isDecimalDigit)

/-- Whether digits are followed by an optional fraction and an optional power of ten. -/
def isFraction : List Char → Bool
  | '.' :: rest =>
    !(rest.takeWhile isDecimalDigit).isEmpty && isExponent (rest.dropWhile isDecimalDigit)
  | cs => isExponent cs

/-- Whether characters are a JSON number: an optional minus, digits without a zero in front, an
optional fraction and an optional power of ten. -/
def isNumber (cs : List Char) : Bool :=
  let body := match cs with
    | '-' :: rest => rest
    | _ => cs
  match body with
  | '0' :: rest => isFraction rest
  | c :: _ => isDecimalDigit c && isFraction (body.dropWhile isDecimalDigit)
  | [] => false

/-! ## The scanner -/

/-- Read a byte between lexemes. -/
def start (done : List Lexeme) (b : UInt8) : Option (LexemeState × List Lexeme) :=
  if isSpace b then some (.between, done)
  else if b == 0x5b then some (.between, .openArray :: done)
  else if b == 0x5d then some (.between, .closeArray :: done)
  else if b == 0x7b then some (.between, .openObject :: done)
  else if b == 0x7d then some (.between, .closeObject :: done)
  else if b == 0x2c then some (.between, .comma :: done)
  else if b == 0x3a then some (.between, .colon :: done)
  else if b == 0x22 then some (.inString [], done)
  else if isLetter b then some (.inWord [Char.ofNat b.toNat], done)
  else if isNumberByte b then some (.inNumber [Char.ofNat b.toNat], done)
  else none

/-- End the word or the number that is being read. -/
def finish : LexemeState → List Lexeme → Option (List Lexeme)
  | .between, done => some done
  | .inWord letters, done => (ofWord? letters.reverse).map (· :: done)
  | .inNumber chars, done =>
    if isNumber chars.reverse then some (.number chars.reverse :: done) else none
  | _, _ => none

/-- Read one byte. -/
def step (state : LexemeState) (done : List Lexeme) (b : UInt8) :
    Option (LexemeState × List Lexeme) :=
  match state with
  | .between => start done b
  | .inWord letters =>
    if isLetter b then some (.inWord (Char.ofNat b.toNat :: letters), done)
    else do start (← finish state done) b
  | .inNumber chars =>
    if isNumberByte b then some (.inNumber (Char.ofNat b.toNat :: chars), done)
    else do start (← finish state done) b
  | .inString units =>
    if b == 0x22 then some (.between, .string units.reverse :: done)
    else if b == 0x5c then some (.afterBackslash units, done)
    else if b < 0x20 then none
    else some (.inString (.byte b :: units), done)
  | .afterBackslash units =>
    if b == 0x75 then some (.inCodeUnit units [], done)
    else (escaped? b).map fun e => (.inString (.byte e :: units), done)
  | .inCodeUnit units digits =>
    match digits, hexValue? b with
    | [z, y, x], some w =>
      some (.inString (.codeUnit (((x * 16 + y) * 16 + z) * 16 + w) :: units), done)
    | digits, some w => some (.inCodeUnit units (w :: digits), done)
    | _, none => none

/-- Cut bytes into lexemes, which are collected in reverse. -/
def scan (state : LexemeState) (done : List Lexeme) : List UInt8 → Option (List Lexeme)
  | [] => finish state done
  | b :: rest =>
    match step state done b with
    | some (state', done') => scan state' done' rest
    | none => none

/-- The lexemes of JSON text, if it can be cut into lexemes. -/
def ofBytes? (bytes : List UInt8) : Option (List Lexeme) :=
  (scan .between [] bytes).map List.reverse

end Lexeme

end Json

end ItemStore
