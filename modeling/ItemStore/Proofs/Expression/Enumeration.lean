import Mathlib.Data.List.Induction
import Mathlib.Data.List.Shortlex
import ItemStore.Proofs.Expression.Words

/-!
# Words in order

A supply hands out all lower case words, the shorter before the longer and words of one length in
the order of the alphabet.  `Words` shows that a word gives its number back; here every lower case
word is the word of its number, and numbers and words are in the same order.

* `word_wordValue`: reading a lower case word as a numeral and writing the number again gives the
  word back.
* `word_lt`: a greater number has a later word.  The induction follows the numeral: the last letter
  decides only among words with the same letters in front of it (`shortlex_concat`).
* `TokenSource.take_eq`: what is handed out by one `next` after another.
* `TokenSource.words_in_order` has these together, about the words that a supply hands out.
-/

namespace ItemStore

/-- Whether a word is of lower case letters, `a` to `z`. -/
def IsLowercase (w : List Char) : Prop := ∀ c ∈ w, c.isLower = true

instance (w : List Char) : Decidable (IsLowercase w) :=
  inferInstanceAs (Decidable (∀ c ∈ w, c.isLower = true))

/-! ## Letters -/

theorem isLower_iff {c : Char} : c.isLower = true ↔ 97 ≤ c.toNat ∧ c.toNat ≤ 122 := by
  show (c.val ≥ 'a'.val && c.val ≤ 'z'.val) = true ↔ _
  rw [Bool.and_eq_true, decide_eq_true_eq, decide_eq_true_eq]
  exact Iff.rfl

theorem isLower_letter {k : Nat} (h : k < 26) :
    (Char.ofNat ('a'.toNat + k)).isLower = true := by
  rw [isLower_iff, toNat_letter h]
  omega

/-- A lower case letter is the letter of its digit. -/
theorem letter_digit {c : Char} (h : c.isLower = true) :
    Char.ofNat ('a'.toNat + (c.toNat - 97)) = c := by
  have hc : 'a'.toNat + (c.toNat - 97) = c.toNat := by
    show 97 + (c.toNat - 97) = c.toNat
    have := (isLower_iff.1 h).1
    omega
  rw [hc, Char.ofNat_toNat]

theorem letter_lt {j k : Nat} (hjk : j < k) (hk : k < 26) :
    Char.ofNat ('a'.toNat + j) < Char.ofNat ('a'.toNat + k) := by
  show (Char.ofNat ('a'.toNat + j)).toNat < (Char.ofNat ('a'.toNat + k)).toNat
  rw [toNat_letter (hjk.trans hk), toNat_letter hk]
  omega

theorem word_zero : word 0 = [] := by
  rw [word, if_pos rfl]

theorem isLowercase_word (n : Nat) : IsLowercase (word n) := by
  induction n using Nat.strongRecOn with
  | ind n ih =>
    cases n with
    | zero => simp [word_zero, IsLowercase]
    | succ n =>
      intro c hc
      rw [word_succ, List.mem_append, List.mem_singleton] at hc
      rcases hc with hc | rfl
      · exact ih (n / 26) (by omega) c hc
      · exact isLower_letter (Nat.mod_lt n (by decide))

/-! ## Every word has a number -/

theorem wordValue_concat (w : List Char) (c : Char) :
    wordValue (w ++ [c]) = 26 * wordValue w + (c.toNat - 96) := by
  simp [wordValue]

/-- A lower case word is the word of its number. -/
theorem word_wordValue {w : List Char} (h : IsLowercase w) : word (wordValue w) = w := by
  induction w using List.reverseRecOn with
  | nil => exact word_zero
  | append_singleton w c ih =>
    have hw : IsLowercase w := fun x hx => h x (List.mem_append_left _ hx)
    have hc : c.isLower = true := h c (by simp)
    obtain ⟨hlow, hhigh⟩ := isLower_iff.1 hc
    have hvalue : wordValue (w ++ [c]) = 26 * wordValue w + (c.toNat - 97) + 1 := by
      rw [wordValue_concat]
      omega
    have hdiv : (26 * wordValue w + (c.toNat - 97)) / 26 = wordValue w := by omega
    have hmod : (26 * wordValue w + (c.toNat - 97)) % 26 = c.toNat - 97 := by omega
    rw [hvalue, word_succ, hdiv, hmod, ih hw, letter_digit hc]

theorem wordValue_pos {w : List Char} (h : IsLowercase w) (hne : w ≠ []) : 0 < wordValue w := by
  apply Nat.pos_of_ne_zero
  intro hzero
  apply hne
  rw [← word_wordValue h, hzero, word_zero]

/-! ## Numbers and words are in the same order -/

section Shortlex

variable {α : Type} {r : α → α → Prop}

/-- Words of one length are compared at the first place where they differ, whatever follows. -/
theorem lex_append {a b : List α} (h : List.Lex r a b) (hlength : a.length = b.length)
    (u v : List α) : List.Lex r (a ++ u) (b ++ v) := by
  induction h with
  | nil => simp at hlength
  | cons _ ih =>
    apply List.Lex.cons
    apply ih
    simpa using hlength
  | rel hr => exact List.Lex.rel hr

/-- A letter behind each of two words does not change their order. -/
theorem shortlex_concat {a b : List α} (h : List.Shortlex r a b) (x y : α) :
    List.Shortlex r (a ++ [x]) (b ++ [y]) := by
  rcases List.shortlex_def.1 h with hlt | ⟨heq, hlex⟩
  · apply List.Shortlex.of_length_lt
    simpa using hlt
  · apply List.Shortlex.of_lex
    · simpa using heq
    · exact lex_append hlex heq [x] [y]

end Shortlex

/-- A greater number has a later word. -/
theorem word_lt {m n : Nat} (h : m < n) : List.Shortlex (· < ·) (word m) (word n) := by
  induction n using Nat.strongRecOn generalizing m with
  | ind n ih =>
    cases n with
    | zero => exact absurd h (Nat.not_lt_zero m)
    | succ n =>
      cases m with
      | zero =>
        apply List.Shortlex.of_length_lt
        rw [word_zero, word_succ]
        simp
      | succ m =>
        rw [word_succ, word_succ]
        by_cases hfront : m / 26 = n / 26
        · -- only the last letters differ
          rw [hfront]
          apply List.Shortlex.append_left
          rw [List.shortlex_singleton_iff]
          apply letter_lt
          · omega
          · exact Nat.mod_lt n (by decide)
        · apply shortlex_concat
          apply ih
          · omega
          · omega

theorem word_lt_iff {m n : Nat} : List.Shortlex (· < ·) (word m) (word n) ↔ m < n := by
  constructor
  · intro h
    rcases Nat.lt_trichotomy m n with hlt | rfl | hgt
    · exact hlt
    · exact absurd h (irrefl_of _ (word m))
    · exact absurd h (asymm_of _ (word_lt hgt))
  · exact word_lt

/-! ## What a supply hands out -/

namespace TokenSource

theorem take_eq (s : TokenSource) (k : Nat) :
    s.take k = ((List.range' (s.issued + 1) k).map s.nth, { s with issued := s.issued + k }) := by
  induction k generalizing s with
  | zero => rfl
  | succ k ih =>
    show (s.next.1 :: (s.next.2.take k).1, (s.next.2.take k).2) = _
    rw [ih]
    simp [next, nth, List.range'_succ, Nat.add_assoc, Nat.add_comm 1 k]

/-- Skipping keeps the last of the words that are taken. -/
theorem skip_eq (s : TokenSource) (n : Nat) :
    s.skip n = ((s.take n).1.getLast?, (s.take n).2) := by
  rw [take_eq, skip]
  cases n with
  | zero => simp
  | succ n =>
    rw [if_neg (Nat.succ_ne_zero n), List.range'_concat]
    simp [Nat.add_assoc, Nat.add_comm 1 n]

/-- Whether a text is the `n`-th that is handed out after a reset, counted from one. -/
def HandsOut (s : TokenSource) (n : Nat) (t : String) : Prop :=
  (s.reset.take n).1.getLast? = some t

/-- The `n`-th text is the stem with the `n`-th word behind it. -/
theorem handsOut_iff {s : TokenSource} {n : Nat} {t : String} :
    s.HandsOut n t ↔ 0 < n ∧ t = s.stem ++ String.ofList (word n) := by
  have hskip : (s.reset.take n).1.getLast? = (s.reset.skip n).1 := by rw [skip_eq]
  unfold HandsOut
  rw [hskip]
  show (if n = 0 then none else some (s.nth (0 + n))) = some t ↔ _
  by_cases hn : n = 0
  · simp [hn]
  · rw [if_neg hn, Nat.zero_add, Option.some.injEq, eq_comm, nth]
    exact (and_iff_right (Nat.pos_of_ne_zero hn)).symm

theorem handsOut_word_iff {s : TokenSource} {n : Nat} {w : List Char} :
    s.HandsOut n (s.stem ++ String.ofList w) ↔ 0 < n ∧ word n = w := by
  rw [handsOut_iff]
  apply and_congr_right
  intro _
  constructor
  · intro h
    have hlist := congrArg String.toList h
    simp only [String.toList_append, String.toList_ofList] at hlist
    exact (List.append_cancel_left hlist).symm
  · rintro rfl
    rfl

/-- **A supply hands out all lower case words in order.**

After a reset, whatever was handed out before, the `n`-th text is the stem with a word of lower case
letters behind it.  Later words are longer, or as long and later in the alphabet, and no text comes
twice.  Every lower case word comes, at the place that it names as a numeral in base twenty-six with
the letters as the digits one to twenty-six, and at no other.  This holds at every place, so at all
that a counter of 64 bits reaches. -/
theorem words_in_order (s : TokenSource) :
    (∀ n, 0 < n → s.HandsOut n (s.stem ++ String.ofList (word n)) ∧ word n ≠ [] ∧
        IsLowercase (word n)) ∧
      (∀ m n, List.Shortlex (· < ·) (word m) (word n) ↔ m < n) ∧
      (∀ m n t, s.HandsOut m t → s.HandsOut n t → m = n) ∧
      ∀ w, w ≠ [] → IsLowercase w →
        ∀ n, s.HandsOut n (s.stem ++ String.ofList w) ↔ n = wordValue w := by
  refine ⟨?_, ?_, ?_, ?_⟩
  · intro n hn
    exact ⟨handsOut_iff.2 ⟨hn, rfl⟩, word_ne_nil hn, isLowercase_word n⟩
  · intro m n
    exact word_lt_iff
  · intro m n t hm hn
    obtain ⟨-, rfl⟩ := handsOut_iff.1 hm
    exact (word_injective (handsOut_word_iff.1 hn).2).symm
  · intro w hne hw n
    rw [handsOut_word_iff]
    constructor
    · rintro ⟨-, rfl⟩
      exact (wordValue_word n).symm
    · rintro rfl
      exact ⟨wordValue_pos hw hne, word_wordValue hw⟩

/-- A supply that was in use before: where a letter is added, and the last place that a counter of
64 bits reaches. -/
theorem words_in_order_rollover :
    let s : TokenSource := ⟨"k_", 5⟩
    s.HandsOut 702 ("k_" ++ String.ofList (word 702)) ∧ word 702 = "zz".toList ∧
      s.HandsOut 703 ("k_" ++ "aaa") ∧ List.Shortlex (· < ·) (word 702) (word 703) ∧
      s.HandsOut 18446744073709551615 ("k_" ++ "gkgwbylwrxtlpo") := by
  obtain ⟨hword, horder, -, hplace⟩ := words_in_order ⟨"k_", 5⟩
  refine ⟨(hword 702 (by decide)).1, by decide +kernel, ?_, (horder 702 703).2 (by decide), ?_⟩
  · exact (hplace "aaa".toList (by decide) (by decide) 703).2 (by decide)
  · exact (hplace "gkgwbylwrxtlpo".toList (by decide) (by decide) _).2 (by decide)

end TokenSource

end ItemStore
