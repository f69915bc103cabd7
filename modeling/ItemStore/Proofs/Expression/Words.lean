import Mathlib.Data.List.Basic
import ItemStore.Expression.Token
import ItemStore.Proofs.Expression.Signs

/-!
# Fresh words are fresh

The words that a supply hands out are numerals in base twenty-six without a zero.  `wordValue` reads
such a numeral, so that no two numbers have one word.

* `wordValue_word` and `word_injective`: a word gives its number back.
* `TokenSource.nth_injective`: a supply never repeats a word.
* `TokenSource.isToken_nth`: with a sigil in front, its words have the shape of placeholders, as
  long as the stem is made of letters, digits and underscores.
-/

namespace ItemStore

/-! ## Words as numerals -/

/-- The number that a lower case word is a numeral of. -/
def wordValue (cs : List Char) : Nat := cs.foldl (fun v c => 26 * v + (c.toNat - 96)) 0

theorem toNat_letter {k : Nat} (h : k < 26) : (Char.ofNat ('a'.toNat + k)).toNat = 97 + k := by
  revert k
  decide

theorem isTokenChar_letter {k : Nat} (h : k < 26) :
    Piece.isTokenChar (Char.ofNat ('a'.toNat + k)) = true := by
  revert k
  decide

/-- The last letter of a word counts the rest behind whole groups of twenty-six. -/
theorem word_succ (n : Nat) :
    word (n + 1) = word (n / 26) ++ [Char.ofNat ('a'.toNat + n % 26)] := by
  rw [word, if_neg (Nat.succ_ne_zero n), Nat.add_sub_cancel]

/-- Reading a word gives its number. -/
theorem wordValue_word (n : Nat) : wordValue (word n) = n := by
  induction n using Nat.strongRecOn with
  | ind n ih =>
    cases n with
    | zero => simp [word, wordValue]
    | succ n =>
      have hprefix : wordValue (word (n / 26)) = n / 26 := ih (n / 26) (by omega)
      rw [wordValue] at hprefix ⊢
      rw [word_succ, List.foldl_append, hprefix, List.foldl_cons, List.foldl_nil,
        toNat_letter (Nat.mod_lt n (by decide))]
      omega

/-- No two numbers have one word. -/
theorem word_injective {m n : Nat} (h : word m = word n) : m = n := by
  rw [← wordValue_word m, h, wordValue_word]

/-- A word has letters only, which may stand in a placeholder. -/
theorem isTokenChar_word (n : Nat) : ∀ c ∈ word n, Piece.isTokenChar c = true := by
  induction n using Nat.strongRecOn with
  | ind n ih =>
    cases n with
    | zero => simp [word]
    | succ n =>
      intro c hc
      rw [word_succ, List.mem_append, List.mem_singleton] at hc
      rcases hc with hc | rfl
      · exact ih (n / 26) (by omega) c hc
      · exact isTokenChar_letter (Nat.mod_lt n (by decide))

/-- Every number but zero has a letter in its word. -/
theorem word_ne_nil {n : Nat} (h : 0 < n) : word n ≠ [] := by
  obtain ⟨m, rfl⟩ := Nat.exists_eq_succ_of_ne_zero (Nat.ne_of_gt h)
  rw [word_succ]
  simp

/-! ## Decimal numerals -/

theorem isTokenChar_of_isDigit {c : Char} (h : c.isDigit = true) : Piece.isTokenChar c = true := by
  have h09 : ('0' ≤ c && c ≤ '9') = true := by
    simpa [Char.isDigit, Char.le_def] using h
  simp only [Piece.isTokenChar, h09, Bool.or_true, Bool.true_or]

theorem isTokenChar_toString (i : Nat) : ∀ c ∈ (toString i).toList, Piece.isTokenChar c = true := by
  intro c hc
  have hc' : c ∈ Nat.toDigits 10 i := by
    simpa [Nat.repr] using hc
  exact isTokenChar_of_isDigit (Nat.isDigit_of_mem_toDigits (by decide) (by decide) hc')

/-- No two numbers have one decimal numeral. -/
theorem toString_injective {i j : Nat} (h : toString i = toString j) : i = j := by
  have hdigits : Nat.toDigits 10 i = Nat.toDigits 10 j := by
    simpa [Nat.repr] using congrArg String.toList h
  rw [← Nat.ofDigitChars_toDigits (b := 10) (n := i) (by decide) (by decide), hdigits,
    Nat.ofDigitChars_toDigits (by decide) (by decide)]

/-! ## Supplies -/

namespace TokenSource

theorem toList_nth (s : TokenSource) (n : Nat) :
    (s.nth n).toList = s.stem.toList ++ word n := by
  rw [nth, String.toList_append, String.toList_ofList]

/-- A supply never repeats a word. -/
theorem nth_injective (s : TokenSource) {m n : Nat} (h : s.nth m = s.nth n) : m = n := by
  have hlist := congrArg String.toList h
  rw [toList_nth, toList_nth] at hlist
  exact word_injective (List.append_cancel_left hlist)

/-- Whether the words of a supply may stand in placeholders. -/
def Plain (s : TokenSource) : Prop := ∀ c ∈ s.stem.toList, Piece.isTokenChar c = true

theorem isToken_nth {s : TokenSource} (hs : s.Plain) {sigil : String} {c : Char}
    (hsigil : sigil.toList = [c]) (hc : Piece.isSigil c = true) {n : Nat} (hn : 0 < n) :
    IsToken (sigil ++ s.nth n) := by
  refine ⟨c, s.stem.toList ++ word n, ?_, hc, ?_, ?_⟩
  · rw [String.toList_append, hsigil, toList_nth, List.singleton_append]
  · intro h
    exact word_ne_nil hn (List.append_eq_nil_iff.1 h).2
  · intro x hx
    rcases List.mem_append.1 hx with hx | hx
    · exact hs x hx
    · exact isTokenChar_word n x hx

end TokenSource

end ItemStore
