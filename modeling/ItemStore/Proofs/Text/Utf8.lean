import ItemStore.Proofs.Lists
import ItemStore.Text.Utf8

/-!
# The bytes of characters

A text is written in UTF-8 character by character (`encode_eq`), a character below 128 as one byte
and any other in bytes of which none is below 128 (`charBytes_cases`).  So a byte below 128 is
always a character of its own, and never a part of one.

Reading undoes this: every character is read from its own bytes, whatever stands behind them
(`step_charBytes`), and a text from the bytes of its characters (`decode?_encode`).
-/

namespace ItemStore

namespace Utf8

/-- The bytes of characters behind one another. -/
def bytesOf (cs : List Char) : List UInt8 := cs.flatMap String.utf8EncodeChar

@[simp] theorem bytesOf_nil : bytesOf [] = [] := rfl

theorem bytesOf_cons (c : Char) (cs : List Char) :
    bytesOf (c :: cs) = String.utf8EncodeChar c ++ bytesOf cs :=
  List.flatMap_cons

theorem bytesOf_append (cs ds : List Char) : bytesOf (cs ++ ds) = bytesOf cs ++ bytesOf ds :=
  List.flatMap_append

/-- The bytes of the first character stand in front. -/
theorem bytesOf_cons_append (c : Char) (cs : List Char) (rest : List UInt8) :
    bytesOf (c :: cs) ++ rest = bytesOf [c] ++ (bytesOf cs ++ rest) := by
  rw [← List.append_assoc, ← bytesOf_append]
  rfl

/-! ## Texts -/

theorem toList_loop (bytes : ByteArray) (i : Nat) (read : List UInt8) :
    ByteArray.toList.loop bytes i read = read.reverse ++ bytes.data.toList.drop i := by
  fun_induction ByteArray.toList.loop bytes i read with
  | case1 i read h ih =>
    have hi : i < bytes.data.toList.length := by simpa using h
    rw [ih, List.drop_eq_getElem_cons hi]
    simp [ByteArray.get!, h]
  | case2 i read h =>
    rw [List.drop_eq_nil_of_le]
    · simp
    · simpa using Nat.le_of_not_lt h

theorem encode_ofList (cs : List Char) : encode (String.ofList cs) = bytesOf cs := by
  unfold encode ByteArray.toList
  rw [String.toUTF8_eq_toByteArray, toList_loop]
  exact List.toList_data_toByteArray

/-- A text is encoded character by character. -/
theorem encode_eq (text : String) : encode text = bytesOf text.toList := by
  rw [← encode_ofList, String.ofList_toList]

/-! ## Characters -/

theorem le_toNat_ofNat {n : Nat} (hlow : 128 ≤ n) (hhigh : n < 256) :
    128 ≤ (UInt8.ofNat n).toNat := by
  rw [UInt8.toNat_ofNat_of_lt' hhigh]
  exact hlow

/-- A character is one byte below 128, or it has no byte below 128. -/
theorem charBytes_cases (c : Char) :
    (c.toNat < 128 ∧ String.utf8EncodeChar c = [UInt8.ofNat c.toNat]) ∨
      (128 ≤ c.toNat ∧ ∀ b ∈ String.utf8EncodeChar c, 128 ≤ b.toNat) := by
  by_cases hc : c.toNat < 128
  · left
    have hle : c.val.toNat ≤ 127 := Nat.le_of_lt_succ hc
    simp only [String.utf8EncodeChar, hle, if_true]
    exact ⟨hc, rfl⟩
  · right
    refine ⟨Nat.le_of_not_lt hc, ?_⟩
    have hgt : ¬ c.val.toNat ≤ 127 := fun hle => hc (Nat.lt_succ_of_le hle)
    intro b hb
    simp only [String.utf8EncodeChar, hgt, if_false] at hb
    -- two, three or four bytes, each with its first bit set
    split at hb
    · simp only [List.mem_cons, List.not_mem_nil, or_false] at hb
      rcases hb with rfl | rfl <;> apply le_toNat_ofNat <;> omega
    · split at hb
      · simp only [List.mem_cons, List.not_mem_nil, or_false] at hb
        rcases hb with rfl | rfl | rfl <;> apply le_toNat_ofNat <;> omega
      · simp only [List.mem_cons, List.not_mem_nil, or_false] at hb
        rcases hb with rfl | rfl | rfl | rfl <;> apply le_toNat_ofNat <;> omega

/-- Characters below 128 are one byte each. -/
theorem bytesOf_of_lt {cs : List Char} (h : ∀ c ∈ cs, c.toNat < 128) :
    bytesOf cs = cs.map fun c => UInt8.ofNat c.toNat := by
  induction cs with
  | nil => rfl
  | cons c cs ih =>
    obtain ⟨hc, hcs⟩ := List.forall_mem_cons.1 h
    rcases charBytes_cases c with ⟨-, hbytes⟩ | ⟨hge, -⟩
    · rw [bytesOf_cons, hbytes, ih hcs]
      rfl
    · omega

theorem charBytes_ne_nil (c : Char) : String.utf8EncodeChar c ≠ [] := by
  apply List.ne_nil_of_length_pos
  rw [String.length_utf8EncodeChar]
  exact c.utf8Size_pos

/-! ## Reading back -/

section Step

variable {first b c d : UInt8}

/-- A second byte goes on with the character, within a smaller range behind four first bytes. -/
theorem isSecond_of (hb : isContinuation b = true) (he0 : first = 0xE0 → 0xA0 ≤ b)
    (hed : first = 0xED → b ≤ 0x9F) (hf0 : first = 0xF0 → 0x90 ≤ b)
    (hf4 : first = 0xF4 → b ≤ 0x8F) : isSecond first b = true := by
  unfold isSecond
  grind [isContinuation]

/-- A small byte is a character of its own. -/
theorem step_one (h : first < 0x80) (rest : List UInt8) :
    step first rest = ⟨some (Char.ofNat first.toNat), 0⟩ := by
  unfold step
  grind

theorem step_two (hlow : 0xC2 ≤ first) (hhigh : first ≤ 0xDF)
    (hb : isContinuation b = true) (rest : List UInt8) :
    step first (b :: rest) = ⟨some (Char.ofNat (first.toNat % 32 * 64 + payload b)), 1⟩ := by
  unfold step stepTwo
  grind

theorem step_three (hlow : 0xE0 ≤ first) (hhigh : first ≤ 0xEF) (hb : isSecond first b = true)
    (hc : isContinuation c = true) (rest : List UInt8) :
    step first (b :: c :: rest) =
      ⟨some (Char.ofNat ((first.toNat % 16 * 64 + payload b) * 64 + payload c)), 2⟩ := by
  unfold step stepThree
  grind

theorem step_four (hlow : 0xF0 ≤ first) (hhigh : first ≤ 0xF4) (hb : isSecond first b = true)
    (hc : isContinuation c = true) (hd : isContinuation d = true) (rest : List UInt8) :
    step first (b :: c :: d :: rest) =
      ⟨some (Char.ofNat (((first.toNat % 8 * 64 + payload b) * 64 + payload c) * 64 + payload d)),
        3⟩ := by
  unfold step stepFour
  grind

end Step

theorem toNat_byte {n : Nat} (h : n < 256) : (UInt8.ofNat n).toNat = n :=
  UInt8.toNat_ofNat_of_lt' h

/-- Six bits in a continuation make a continuation. -/
theorem isContinuation_byte (n : Nat) : isContinuation (UInt8.ofNat (n % 64 + 128)) = true := by
  have hn := toNat_byte (n := n % 64 + 128) (by omega)
  simp only [isContinuation, UInt8.le_iff_toNat_le, hn, Bool.and_eq_true, decide_eq_true_eq]
  exact ⟨by show 128 ≤ _; omega, by show _ ≤ 191; omega⟩

/-- A continuation carries the six bits that were put into it. -/
theorem payload_byte (n : Nat) : payload (UInt8.ofNat (n % 64 + 128)) = n % 64 := by
  rw [payload, toNat_byte (by omega)]
  omega

theorem byte_le_byte {m n : Nat} (hle : m ≤ n) (hn : n < 256) : UInt8.ofNat m ≤ UInt8.ofNat n := by
  rw [UInt8.le_iff_toNat_le, toNat_byte (Nat.lt_of_le_of_lt hle hn), toNat_byte hn]
  exact hle

theorem byte_inj {m n : Nat} (hm : m < 256) (hn : n < 256) (h : UInt8.ofNat m = UInt8.ofNat n) :
    m = n := by
  rw [← toNat_byte hm, h, toNat_byte hn]

/-- The second of three bytes keeps out code points below 2048 and surrogates. -/
theorem isSecond_three {v : Nat} (hlow : 2048 ≤ v) (hhigh : v ≤ 65535)
    (hvalid : v < 0xD800 ∨ 0xDFFF < v) :
    isSecond (UInt8.ofNat (v / 4096 % 16 + 224)) (UInt8.ofNat (v / 64 % 64 + 128)) = true := by
  refine isSecond_of (isContinuation_byte _) ?_ ?_ ?_ ?_ <;> intro h
  · have heq := byte_inj (n := 0xE0) (by omega) (by omega) h
    exact byte_le_byte (m := 0xA0) (by omega) (by omega)
  · have heq := byte_inj (n := 0xED) (by omega) (by omega) h
    exact byte_le_byte (n := 0x9F) (by omega) (by omega)
  · have heq := byte_inj (n := 0xF0) (by omega) (by omega) h
    omega
  · have heq := byte_inj (n := 0xF4) (by omega) (by omega) h
    omega

/-- The second of four bytes keeps out code points below 65536 and past the last. -/
theorem isSecond_four {v : Nat} (hlow : 65535 < v) (hhigh : v < 0x110000) :
    isSecond (UInt8.ofNat (v / 262144 % 8 + 240)) (UInt8.ofNat (v / 4096 % 64 + 128)) = true := by
  refine isSecond_of (isContinuation_byte _) ?_ ?_ ?_ ?_ <;> intro h
  · have heq := byte_inj (n := 0xE0) (by omega) (by omega) h
    omega
  · have heq := byte_inj (n := 0xED) (by omega) (by omega) h
    omega
  · have heq := byte_inj (n := 0xF0) (by omega) (by omega) h
    exact byte_le_byte (m := 0x90) (by omega) (by omega)
  · have heq := byte_inj (n := 0xF4) (by omega) (by omega) h
    exact byte_le_byte (n := 0x8F) (by omega) (by omega)

/-- A character is read from its bytes, whatever stands behind them. -/
theorem step_charBytes (c : Char) : ∃ first more, String.utf8EncodeChar c = first :: more ∧
    ∀ rest, step first (more ++ rest) = ⟨some c, more.length⟩ := by
  have hread {n : Nat} (h : n = c.val.toNat) : Char.ofNat n = c := by
    rw [h]
    exact c.ofNat_toNat
  have hvalid : c.val.toNat < 0xD800 ∨ 0xDFFF < c.val.toNat ∧ c.val.toNat < 0x110000 := c.valid
  unfold String.utf8EncodeChar
  generalize c.val.toNat = v at hread hvalid
  dsimp only
  -- one byte, two, three or four
  split_ifs with h1 h2 h3
  · refine ⟨_, _, rfl, fun rest => ?_⟩
    have hfirst : UInt8.ofNat v < 0x80 := by
      rw [UInt8.lt_iff_toNat_lt, toNat_byte (by omega)]
      exact Nat.lt_succ_of_le h1
    rw [step_one hfirst, hread (toNat_byte (by omega))]
    rfl
  · refine ⟨_, _, rfl, fun rest => ?_⟩
    have hlow := byte_le_byte (m := 0xC2) (n := v / 64 % 32 + 192) (by omega) (by omega)
    have hhigh := byte_le_byte (m := v / 64 % 32 + 192) (n := 0xDF) (by omega) (by omega)
    rw [List.singleton_append, step_two hlow hhigh (isContinuation_byte v), payload_byte,
      toNat_byte (by omega), hread (by omega)]
    rfl
  · refine ⟨_, _, rfl, fun rest => ?_⟩
    have hlow := byte_le_byte (m := 0xE0) (n := v / 4096 % 16 + 224) (by omega) (by omega)
    have hhigh := byte_le_byte (m := v / 4096 % 16 + 224) (n := 0xEF) (by omega) (by omega)
    have hsecond := isSecond_three (v := v) (by omega) h3 (by omega)
    show step _ (_ :: _ :: rest) = _
    rw [step_three hlow hhigh hsecond (isContinuation_byte v), payload_byte, payload_byte,
      toNat_byte (by omega), hread (by omega)]
    rfl
  · refine ⟨_, _, rfl, fun rest => ?_⟩
    have hlow := byte_le_byte (m := 0xF0) (n := v / 262144 % 8 + 240) (by omega) (by omega)
    have hhigh := byte_le_byte (m := v / 262144 % 8 + 240) (n := 0xF4) (by omega) (by omega)
    have hsecond := isSecond_four (v := v) (by omega) (by omega)
    show step _ (_ :: _ :: _ :: rest) = _
    rw [step_four hlow hhigh hsecond (isContinuation_byte _) (isContinuation_byte v),
      payload_byte, payload_byte, payload_byte, toNat_byte (by omega), hread (by omega)]
    rfl

/-- A character is read in front of what follows. -/
theorem chars_charBytes_append (c : Char) (rest : List UInt8) :
    chars (String.utf8EncodeChar c ++ rest) = some c :: chars rest := by
  obtain ⟨first, more, hbytes, hstep⟩ := step_charBytes c
  rw [hbytes, List.cons_append, chars, hstep, List.drop_left]

/-- What was encoded is decoded character by character, none of them replaced. -/
theorem chars_bytesOf (cs : List Char) : chars (bytesOf cs) = cs.map some := by
  induction cs with
  | nil => rw [bytesOf_nil, chars, List.map_nil]
  | cons c cs ih => rw [bytesOf_cons, chars_charBytes_append, ih, List.map_cons]

/-- A text is read back from its bytes. -/
theorem decode?_encode (text : String) : decode? (encode text) = some text := by
  have hread : (text.toList.map some).mapM id = some text.toList :=
    mapM_eq_some.2 (List.forall₂_map_left_iff.2 (List.forall₂_same.2 fun _ _ => rfl))
  rw [encode_eq, decode?, chars_bytesOf, hread, Option.map_some, String.ofList_toList]

end Utf8

end ItemStore
