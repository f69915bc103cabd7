/-!
# UTF-8

Bytes are read one character at a time.  `step` says what the first bytes are: a character, or
the longest start of a character that is no character, which counts as one fault.  `decode?`
refuses every fault and `decodeLossy` puts the replacement character in its place.
-/

namespace ItemStore

namespace Utf8

/-! ## One character -/

/-- What stands at the front of some bytes: a character or a fault, and how many bytes it has
after the first. -/
structure Step where
  /-- The character, unless the bytes are a fault. -/
  char? : Option Char
  /-- The bytes it has after the first. -/
  more : Nat

/-- Whether a byte goes on with a character that an earlier byte began. -/
def isContinuation (b : UInt8) : Bool := 0x80 ≤ b && b ≤ 0xBF

/-- The bytes that may follow the first byte of a longer character: they keep out the spellings
that are too long, the surrogates and the code points past the last. -/
def isSecond (first b : UInt8) : Bool :=
  if first == 0xE0 then 0xA0 ≤ b && b ≤ 0xBF
  else if first == 0xED then 0x80 ≤ b && b ≤ 0x9F
  else if first == 0xF0 then 0x90 ≤ b && b ≤ 0xBF
  else if first == 0xF4 then 0x80 ≤ b && b ≤ 0x8F
  else isContinuation b

/-- The six bits that a continuation byte carries. -/
def payload (b : UInt8) : Nat := b.toNat % 64

/-- Read a character of two bytes after its first byte. -/
def stepTwo (first : UInt8) : List UInt8 → Step
  | b :: _ =>
    if isContinuation b then ⟨some (Char.ofNat (first.toNat % 32 * 64 + payload b)), 1⟩
    else ⟨none, 0⟩
  | [] => ⟨none, 0⟩

/-- Read a character of three bytes after its first byte. -/
def stepThree (first : UInt8) : List UInt8 → Step
  | b :: rest =>
    if isSecond first b then
      match rest with
      | c :: _ =>
        if isContinuation c then
          ⟨some (Char.ofNat ((first.toNat % 16 * 64 + payload b) * 64 + payload c)), 2⟩
        else ⟨none, 1⟩
      | [] => ⟨none, 1⟩
    else ⟨none, 0⟩
  | [] => ⟨none, 0⟩

/-- Read a character of four bytes after its first byte. -/
def stepFour (first : UInt8) : List UInt8 → Step
  | b :: rest =>
    if isSecond first b then
      match rest with
      | c :: rest' =>
        if isContinuation c then
          match rest' with
          | d :: _ =>
            if isContinuation d then
              ⟨some (Char.ofNat
                (((first.toNat % 8 * 64 + payload b) * 64 + payload c) * 64 + payload d)), 3⟩
            else ⟨none, 2⟩
          | [] => ⟨none, 2⟩
        else ⟨none, 1⟩
      | [] => ⟨none, 1⟩
    else ⟨none, 0⟩
  | [] => ⟨none, 0⟩

/-- Read what stands at the front of `first :: rest`. -/
def step (first : UInt8) (rest : List UInt8) : Step :=
  if first < 0x80 then ⟨some (Char.ofNat first.toNat), 0⟩
  else if 0xC2 ≤ first && first ≤ 0xDF then stepTwo first rest
  else if 0xE0 ≤ first && first ≤ 0xEF then stepThree first rest
  else if 0xF0 ≤ first && first ≤ 0xF4 then stepFour first rest
  else ⟨none, 0⟩

/-! ## All characters -/

/-- The characters of bytes in order, with `none` for each fault. -/
def chars : List UInt8 → List (Option Char)
  | [] => []
  | first :: rest =>
    let s := step first rest
    s.char? :: chars (rest.drop s.more)
termination_by bytes => bytes.length
decreasing_by
  simp only [List.length_drop, List.length_cons]
  omega

/-- The text of bytes, if they have no fault. -/
def decode? (bytes : List UInt8) : Option String :=
  ((chars bytes).mapM id).map String.ofList

/-- The text of bytes, with the replacement character for each fault. -/
def decodeLossy (bytes : List UInt8) : String :=
  String.ofList ((chars bytes).map fun c => c.getD '\uFFFD')

/-- The bytes of a text. -/
def encode (text : String) : List UInt8 := text.toUTF8.toList

end Utf8

end ItemStore
