import Mathlib.Algebra.Order.Ring.Int
import ItemStore.Paging
import ItemStore.Proofs.Expression.Checking
import ItemStore.Proofs.Expression.Phrases
import ItemStore.Proofs.Expression.Words

/-!
# Connectives in the text of a condition

How much a filter combines is counted in its text, word by word, while its tree says it outright.
The two agree: what stands for the words is the tree alone, since no placeholder, path or function
has the letters of a connective, and every `AND` of a test for bounds comes with a `BETWEEN`.

* `Paging.countIn_spell`: a count of keywords does not depend on the placeholders, so that one
  character may stand for each of them (`outline`).
* `Condition.countIn_phrase`: the keywords in the phrase of a condition are those of its tree.
* `Condition.words_of_says`, `Condition.complexity_of_says`: hence a text that says what a condition
  says has as many connectives as the tree, and a complexity of one more.
-/

namespace ItemStore

/-! ## The connectives of a tree -/

namespace Condition

section Weigh

variable {P : Type} (both either negation bounds : Nat)

mutual

/-- The weight of a condition, if a negation and a test for bounds have one, and a conjunction and
a disjunction have one for every part but the first. -/
def weigh : Condition P → Nat
  | .all children => both * (children.length - 1) + weighAll children
  | .any children => either * (children.length - 1) + weighAll children
  | .not child => negation + weigh child
  | .between _ _ _ => bounds
  | .compare _ _ _ | .oneOf _ _ | .beginsWith _ _ | .contains _ _ | .present _ | .absent _
  | .hasKind _ _ => 0

/-- The weight of the parts of a conjunction or disjunction. -/
def weighAll : List (Condition P) → Nat
  | [] => 0
  | c :: rest => weigh c + weighAll rest

end

end Weigh

variable {P : Type}

/-- How many connectives a condition has: its negations, and for each conjunction and disjunction
one less than it has parts. -/
def connectives (c : Condition P) : Nat := c.weigh 1 1 1 0

/-- How many tests for bounds a condition has. -/
def boundTests (c : Condition P) : Nat := c.weigh 0 0 0 1

section Sums

variable (a b c d a' b' c' d' : Nat)

mutual

/-- What a tree weighs is additive in the weights of its connectives. -/
theorem weigh_add : ∀ x : Condition P,
    x.weigh (a + a') (b + b') (c + c') (d + d') = x.weigh a b c d + x.weigh a' b' c' d'
  | .all children => by
    have hparts := weighAll_add children
    rw [weigh, weigh, weigh, hparts, Nat.add_mul]
    omega
  | .any children => by
    have hparts := weighAll_add children
    rw [weigh, weigh, weigh, hparts, Nat.add_mul]
    omega
  | .not child => by
    have hchild := weigh_add child
    rw [weigh, weigh, weigh, hchild]
    omega
  | .between _ _ _ => rfl
  | .compare _ _ _ | .oneOf _ _ | .beginsWith _ _ | .contains _ _ | .present _ | .absent _
  | .hasKind _ _ => rfl

theorem weighAll_add : ∀ xs : List (Condition P),
    weighAll (a + a') (b + b') (c + c') (d + d') xs =
      weighAll a b c d xs + weighAll a' b' c' d' xs
  | [] => rfl
  | x :: rest => by
    have hhead := weigh_add x
    have hrest := weighAll_add rest
    rw [weighAll, weighAll, weighAll, hhead, hrest]
    omega

end

end Sums

section Parsed

variable (both either negation bounds : Nat)

mutual

/-- Reading the paths of a condition does not change its weight. -/
theorem weigh_of_parsedAs : ∀ (c : Condition String) {c' : Condition Path}, c.ParsedAs c' →
    c.weigh both either negation bounds = c'.weigh both either negation bounds
  | .all children, c', h => by
    cases c' with
    | all children' =>
      obtain ⟨hlength, hweigh⟩ := weighAll_of_parsedAs children h
      rw [weigh, weigh, hlength, hweigh]
    | _ => exact h.elim
  | .any children, c', h => by
    cases c' with
    | any children' =>
      obtain ⟨hlength, hweigh⟩ := weighAll_of_parsedAs children h
      rw [weigh, weigh, hlength, hweigh]
    | _ => exact h.elim
  | .not child, c', h => by
    cases c' with
    | not child' =>
      have hchild := weigh_of_parsedAs child h
      rw [weigh, weigh, hchild]
    | _ => exact h.elim
  | .between _ _ _, c', h => by cases c' <;> first | rfl | exact h.elim
  | .compare _ _ _, c', h | .oneOf _ _, c', h | .beginsWith _ _, c', h | .contains _ _, c', h
  | .present _, c', h | .absent _, c', h | .hasKind _ _, c', h => by
    cases c' <;> first | rfl | exact h.elim

theorem weighAll_of_parsedAs : ∀ (cs : List (Condition String)) {cs' : List (Condition Path)},
    ParsedAllAs cs cs' → cs.length = cs'.length ∧
      weighAll both either negation bounds cs = weighAll both either negation bounds cs'
  | [], cs', h => by
    cases cs' with
    | nil => exact ⟨rfl, rfl⟩
    | cons c' rest' => exact h.elim
  | c :: rest, cs', h => by
    cases cs' with
    | nil => exact h.elim
    | cons c' rest' =>
      have hhead := weigh_of_parsedAs c h.1
      obtain ⟨hlength, hrest⟩ := weighAll_of_parsedAs rest h.2
      rw [weighAll, weighAll, hhead, hrest, List.length_cons, List.length_cons, hlength]
      exact ⟨rfl, rfl⟩

end

end Parsed

end Condition

/-! ## Words -/

section Splitting

variable {α : Type} {q : α → Bool}

/-- What does not separate goes in front of the first part. -/
theorem splitOnP_append_of_forall {xs : List α} (h : ∀ x ∈ xs, q x = false) (ys : List α) :
    (xs ++ ys).splitOnP q = (ys.splitOnP q).modifyHead (xs ++ ·) := by
  induction xs with
  | nil =>
    rw [List.nil_append]
    cases ys.splitOnP q <;> rfl
  | cons x xs ih =>
    rw [List.cons_append, List.splitOnP_cons_eq_if_modifyHead, h x (List.mem_cons_self ..),
      ih fun y hy => h y (List.mem_cons_of_mem _ hy)]
    cases ys.splitOnP q <;> rfl

theorem subset_of_mem_splitOnP {xs part : List α} (h : part ∈ xs.splitOnP q) : part ⊆ xs := by
  induction xs generalizing part with
  | nil =>
    rw [List.splitOnP_nil, List.mem_singleton] at h
    rw [h]
    exact List.Subset.refl _
  | cons x xs ih =>
    rw [List.splitOnP_cons_eq_if_modifyHead] at h
    split at h
    · rcases List.mem_cons.1 h with rfl | h
      · exact List.nil_subset _
      · exact List.subset_cons_of_subset _ (ih h)
    · obtain ⟨first, rest, hsplit⟩ := List.exists_cons_of_ne_nil (List.splitOnP_ne_nil q xs)
      rw [hsplit] at h ih
      rcases List.mem_cons.1 h with rfl | h
      · exact List.cons_subset_cons _ (ih (List.mem_cons_self ..))
      · exact List.subset_cons_of_subset _ (ih (List.mem_cons_of_mem _ h))

theorem forall₂_modifyHead {β : Type} {R : α → β → Prop} {f : α → α} {g : β → β}
    (hR : ∀ a b, R a b → R (f a) (g b)) {l : List α} {l' : List β} (h : List.Forall₂ R l l') :
    List.Forall₂ R (l.modifyHead f) (l'.modifyHead g) := by
  cases h with
  | nil => exact .nil
  | cons hhead hrest => exact .cons (hR _ _ hhead) hrest

end Splitting

namespace Paging

/-- How many words of characters pass a test. -/
def countIn (p : String → Bool) (cs : List Char) : Nat :=
  ((cs.splitOnP isSeparator).filter fun w => p (String.ofList w)).length

theorem countWords_eq (p : String → Bool) (text : String) :
    countWords p text = countIn p text.toList := rfl

/-- A separator ends a word. -/
theorem countIn_split (p : String → Bool) (cs ds : List Char) {c : Char}
    (hc : isSeparator c = true) : countIn p (cs ++ c :: ds) = countIn p cs + countIn p ds := by
  rw [countIn, List.splitOnP_append_cons _ _ hc, List.filter_append, List.length_append]
  rfl

/-- Whether a test passes keywords of conditions only. -/
def PassesKeywords (p : String → Bool) : Prop :=
  ∀ w, p w = true → w ∈ ["AND", "OR", "NOT", "BETWEEN"]

/-- Whether characters are none of the letters of which every keyword has one. -/
def Quiet (cs : List Char) : Prop := ∀ c ∈ cs, c ∉ ['D', 'R', 'T']

instance (cs : List Char) : Decidable (Quiet cs) :=
  inferInstanceAs (Decidable (∀ c ∈ cs, c ∉ ['D', 'R', 'T']))

theorem Quiet.append {cs ds : List Char} (hc : Quiet cs) (hd : Quiet ds) : Quiet (cs ++ ds) :=
  fun c h => (List.mem_append.1 h).elim (hc c) (hd c)

variable {p : String → Bool}

theorem countIn_quiet (hp : PassesKeywords p) {cs : List Char} (h : Quiet cs) :
    countIn p cs = 0 := by
  rw [countIn, List.length_eq_zero_iff, List.filter_eq_nil_iff]
  intro w hw hpass
  have hquiet : Quiet w := fun c hc => h c (subset_of_mem_splitOnP hw hc)
  have hloud : ∀ k ∈ ["AND", "OR", "NOT", "BETWEEN"], ¬ Quiet k.toList := by decide
  refine hloud _ (hp _ hpass) ?_
  rwa [String.toList_ofList]

theorem isSeparator_of_isTokenChar {c : Char} (h : Piece.isTokenChar c = true) :
    isSeparator c = false := by
  have hne : c ≠ '(' ∧ c ≠ ')' := by
    constructor <;> (rintro rfl; revert h; decide)
  have hrange : (97 ≤ c.toNat ∧ c.toNat ≤ 122) ∨ (65 ≤ c.toNat ∧ c.toNat ≤ 90) ∨
      (48 ≤ c.toNat ∧ c.toNat ≤ 57) ∨ c = '_' := by
    simpa [Piece.isTokenChar, Char.le_def, UInt32.le_iff_toNat_le, or_assoc] using h
  have hblank : isBlank c = false := by
    rcases hrange with h | h | h | rfl
    · simp [isBlank, blankRanges]; omega
    · simp [isBlank, blankRanges]; omega
    · simp [isBlank, blankRanges]; omega
    · decide
  simp [isSeparator, hblank, hne]

/-- No character of a placeholder separates words. -/
theorem isSeparator_of_isToken {t : String} (h : IsToken t) :
    ∀ c ∈ t.toList, isSeparator c = false := by
  obtain ⟨sigil, w, ht, hsigil, -, hw⟩ := h
  rw [ht]
  refine List.forall_mem_cons.2 ⟨?_, fun c hc => isSeparator_of_isTokenChar (hw c hc)⟩
  rw [Piece.isSigil, Bool.or_eq_true, beq_iff_eq, beq_iff_eq] at hsigil
  rcases hsigil with rfl | rfl <;> decide

end Paging

/-! ## Outlines -/

/-- The character of a sign, where one character stands for every placeholder. -/
def Sign.outline {α : Type} : Sign α → Char
  | .char c => c
  | .placeholder _ => '#'

/-- The characters of signs, where one character stands for every placeholder. -/
def outline {α : Type} (ss : List (Sign α)) : List Char := ss.map Sign.outline

theorem outline_append {α : Type} (ss ss' : List (Sign α)) :
    outline (ss ++ ss') = outline ss ++ outline ss' := List.map_append

@[simp] theorem outline_literal {α : Type} (text : String) :
    outline (Sign.literal text : List (Sign α)) = text.toList := by
  simp [outline, Sign.literal, Sign.outline, Function.comp_def]

@[simp] theorem outline_map {α β : Type} (f : α → β) (ss : List (Sign α)) :
    outline (ss.map (Sign.map f)) = outline ss := by
  rw [outline, List.map_map]
  exact List.map_congr_left fun s _ => by cases s <;> rfl

/-- Signs that say the same have one outline. -/
theorem Says.outline_eq {p q : List (Sign (Option Binding))} (h : Says p q) :
    outline p = outline q := by
  refine eq_of_forall₂ (R := Eq) (fun _ _ heq => heq)
    (List.forall₂_map_left_iff.2 (List.forall₂_map_right_iff.2 (h.imp fun s t hst => ?_)))
  cases hst <;> rfl

namespace Paging

variable {p : String → Bool}

/-- Words that are the same, or that both have a sigil. -/
def SameWord (w w' : List Char) : Prop := w = w' ∨ (∃ c ∈ w, Piece.isSigil c = true) ∧ '#' ∈ w'

theorem SameWord.append {w w' : List Char} (h : SameWord w w') (c : List Char) :
    SameWord (c ++ w) (c ++ w') := by
  rcases h with rfl | ⟨⟨d, hd, hsigil⟩, hw'⟩
  · exact .inl rfl
  · exact .inr ⟨⟨d, List.mem_append_right _ hd, hsigil⟩, List.mem_append_right _ hw'⟩

/-- A test for keywords answers alike for words that differ in their placeholders. -/
theorem SameWord.pass_eq (hp : PassesKeywords p) {w w' : List Char} (h : SameWord w w') :
    p (String.ofList w) = p (String.ofList w') := by
  have hnone (v : List Char) (hv : ∃ c ∈ v, Piece.isSigil c = true) :
      p (String.ofList v) = false := by
    obtain ⟨c, hc, hsigil⟩ := hv
    rw [← Bool.not_eq_true]
    intro hpass
    have hplain : ∀ k ∈ ["AND", "OR", "NOT", "BETWEEN"], ∀ d ∈ k.toList,
        Piece.isSigil d = false := by decide
    have hno := hplain _ (hp _ hpass) c (by rwa [String.toList_ofList])
    rw [hsigil] at hno
    cases hno
  rcases h with rfl | ⟨hw, hw'⟩
  · rfl
  · rw [hnone w hw, hnone w' ⟨'#', hw', by decide⟩]

/-- Signs are written in the same words as their outline, up to what the placeholders are. -/
theorem sameWords_spell {ss : List (Sign String)} (h : ∀ t, .placeholder t ∈ ss → IsToken t) :
    List.Forall₂ SameWord ((spell ss).splitOnP isSeparator)
      ((outline ss).splitOnP isSeparator) := by
  induction ss with
  | nil => exact .cons (.inl rfl) .nil
  | cons s ss ih =>
    have ih' := ih fun t ht => h t (List.mem_cons_of_mem _ ht)
    cases s with
    | char c =>
      show List.Forall₂ SameWord ((c :: spell ss).splitOnP isSeparator)
        ((c :: outline ss).splitOnP isSeparator)
      rw [List.splitOnP_cons_eq_if_modifyHead, List.splitOnP_cons_eq_if_modifyHead]
      split
      · exact .cons (.inl rfl) ih'
      · exact forall₂_modifyHead (fun _ _ hsame => hsame.append [c]) ih'
    | placeholder t =>
      have ht : IsToken t := h t (List.mem_cons_self ..)
      have hhash : ∀ c ∈ ['#'], isSeparator c = false := by decide
      show List.Forall₂ SameWord ((t.toList ++ spell ss).splitOnP isSeparator)
        ((['#'] ++ outline ss).splitOnP isSeparator)
      rw [splitOnP_append_of_forall (isSeparator_of_isToken ht), splitOnP_append_of_forall hhash]
      refine forall₂_modifyHead (fun _ _ _ => .inr ⟨?_, List.mem_cons_self ..⟩) ih'
      obtain ⟨sigil, w, htext, hsigil, -, -⟩ := ht
      exact ⟨sigil, by rw [htext]; exact List.mem_cons_self .., hsigil⟩

/-- What the placeholders are does not matter to a count of keywords. -/
theorem countWords_eq_outline (hp : PassesKeywords p) (text : String) :
    countWords p text = countIn p (outline (signs text)) := by
  have hwords := sameWords_spell fun t (ht : .placeholder t ∈ signs text) =>
    isToken_of_mem (mem_tokensOf.2 ht)
  rw [signs, spell_signs] at hwords
  rw [countWords_eq]
  exact (forall₂_filter (fun _ _ hsame => hsame.pass_eq hp) hwords).length_eq

end Paging

/-! ## The keywords of phrases -/

open Paging

section Quiet

theorem quiet_nil : Quiet (outline ([] : Phrase)) := nofun

theorem quiet_literal {text : String} (h : Quiet text.toList) :
    Quiet (outline (Sign.literal text : Phrase)) := by
  rwa [outline_literal]

theorem quiet_name (text : String) : Quiet (outline (Phrase.name text)) := by
  show Quiet ['#']
  decide

theorem quiet_value (v : AttributeValue) : Quiet (outline (Phrase.value v)) := by
  show Quiet ['#']
  decide

theorem quiet_append {ss ss' : Phrase} (h : Quiet (outline ss)) (h' : Quiet (outline ss')) :
    Quiet (outline (ss ++ ss')) := by
  rw [outline_append]
  exact h.append h'

theorem quiet_joined {separator : String} (hs : Quiet separator.toList) {ps : List Phrase}
    (h : ∀ q ∈ ps, Quiet (outline q)) : Quiet (outline (Phrase.joined separator ps)) := by
  induction ps with
  | nil => exact quiet_nil
  | cons q ps ih =>
    have hq := h q (List.mem_cons_self ..)
    have hps := ih fun q' hq' => h q' (List.mem_cons_of_mem _ hq')
    cases ps with
    | nil => rwa [Phrase.joined_singleton]
    | cons q' ps =>
      rw [Phrase.joined_cons_cons]
      exact quiet_append hq (quiet_append (quiet_literal hs) hps)

theorem quiet_call {function : String} (hf : Quiet (function ++ "(").toList) {ps : List Phrase}
    (h : ∀ q ∈ ps, Quiet (outline q)) : Quiet (outline (Phrase.call function ps)) :=
  quiet_append (quiet_append (quiet_literal hf) (quiet_joined (by decide) h))
    (quiet_literal (by decide))

theorem quiet_indexText (n : Nat) : Quiet (Scribe.indexText n).toList := by
  have hdigits : Quiet (toString n).toList := by
    intro c hc
    have hc' : c ∈ Nat.toDigits 10 n := by simpa [Nat.repr] using hc
    have hdigit : c.isDigit = true := Nat.isDigit_of_mem_toDigits (by decide) (by decide) hc'
    intro hloud
    have hno : ∀ d ∈ ['D', 'R', 'T'], d.isDigit = false := by decide
    rw [hno c hloud] at hdigit
    cases hdigit
  rw [Scribe.indexText, String.toList_append, String.toList_append]
  exact Quiet.append (Quiet.append (by decide) hdigits) (by decide)

theorem Path.quiet_phraseRest (es : List PathElement) : Quiet (outline (phraseRest es)) := by
  induction es with
  | nil => exact quiet_nil
  | cons e es ih =>
    cases e with
    | name text =>
      exact quiet_append (quiet_append (quiet_literal (by decide)) (quiet_name text)) ih
    | index n => exact quiet_append (quiet_literal (quiet_indexText n)) ih

/-- A path holds no keyword: its names are in placeholders. -/
theorem Path.quiet_phrase (p : Path) : Quiet (outline p.phrase) := by
  obtain ⟨es⟩ := p
  cases es with
  | nil => exact quiet_nil
  | cons e es =>
    cases e with
    | name text => exact quiet_append (quiet_name text) (quiet_phraseRest es)
    | index n => exact quiet_phraseRest (.index n :: es)

/-- A subject holds no keyword: sizes are asked for in small letters. -/
theorem Subject.quiet_phrase (s : Subject Path) : Quiet (outline s.phrase) := by
  cases s with
  | path p => exact p.quiet_phrase
  | size p => exact quiet_call (by decide) (List.forall_mem_singleton.2 p.quiet_phrase)

/-- A function of a path and a value has no keyword in it. -/
theorem quiet_test {function : String} (hf : Quiet (function ++ "(").toList) (p : Path)
    (v : AttributeValue) :
    Quiet (outline (Phrase.call function [p.phrase, Phrase.value v])) :=
  quiet_call hf (List.forall_mem_cons.2
    ⟨p.quiet_phrase, List.forall_mem_singleton.2 (quiet_value v)⟩)

end Quiet

section Keywords

variable {p : String → Bool} {word : String} (hword : word ∈ ["AND", "OR", "NOT", "BETWEEN"])
include hword

theorem countIn_keyword : countIn p word.toList = (p word).toNat := by
  have hwhole : ∀ k ∈ ["AND", "OR", "NOT", "BETWEEN"],
      k.toList.splitOnP isSeparator = [k.toList] := by decide
  rw [countIn, hwhole word hword, List.filter_singleton, String.ofList_toList]
  cases p word <;> rfl

/-- A keyword between blanks is counted with what stands around it. -/
theorem countIn_between (cs ds : List Char) :
    countIn p (cs ++ ((" " ++ word ++ " ").toList ++ ds)) =
      countIn p cs + ((p word).toNat + countIn p ds) := by
  have hlayout : cs ++ ((" " ++ word ++ " ").toList ++ ds) =
      cs ++ ' ' :: (word.toList ++ ' ' :: ds) := by
    simp [String.toList_append]
  rw [hlayout, countIn_split p _ _ (by decide), countIn_split p _ _ (by decide),
    countIn_keyword hword]

/-- Joining phrases with a keyword adds that keyword once between each two of them. -/
theorem countIn_joined (hp : PassesKeywords p) (ps : List Phrase) :
    countIn p (outline (Phrase.joined (" " ++ word ++ " ") ps)) =
      (p word).toNat * (ps.length - 1) + (ps.map fun q => countIn p (outline q)).sum := by
  induction ps with
  | nil => exact countIn_quiet hp quiet_nil
  | cons q ps ih =>
    cases ps with
    | nil => simp [Phrase.joined_singleton]
    | cons q' ps =>
      have hweight : (p word).toNat * ((q :: q' :: ps).length - 1) =
          (p word).toNat * ((q' :: ps).length - 1) + (p word).toNat := Nat.mul_succ _ _
      rw [Phrase.joined_cons_cons, outline_append, outline_append, outline_literal,
        countIn_between hword, ih, hweight]
      simp only [List.map_cons, List.sum_cons]
      omega

/-- The parentheses around a conjunction or disjunction belong to no word. -/
theorem countIn_join (hp : PassesKeywords p) (nested : Bool) (ps : List Phrase) :
    countIn p (outline (Phrase.join nested word ps)) =
      (p word).toNat * (ps.length - 1) + (ps.map fun q => countIn p (outline q)).sum := by
  have hnil : countIn p [] = 0 := countIn_quiet hp quiet_nil
  rw [← countIn_joined hword hp, Phrase.join]
  split
  · have hlayout (cs : List Char) : "(".toList ++ cs ++ ")".toList = [] ++ '(' :: (cs ++ [')']) :=
      by simp
    rw [outline_append, outline_append, outline_literal, outline_literal, hlayout,
      countIn_split p _ _ (by decide), countIn_split p _ _ (by decide), hnil, Nat.zero_add,
      Nat.add_zero]
  · rfl

end Keywords

namespace Condition

section Phrases

variable {p : String → Bool}

/-- A test for bounds has two keywords. -/
theorem countIn_bounds (hp : PassesKeywords p) (s : Subject Path) (low high : AttributeValue)
    (nested : Bool) :
    countIn p (outline ((Condition.between s low high).phrase nested)) =
      (p "BETWEEN").toNat + (p "AND").toNat := by
  have hlayout : outline ((Condition.between s low high).phrase nested) =
      outline s.phrase ++ ((" " ++ "BETWEEN" ++ " ").toList ++
        (outline (Phrase.value low) ++ ((" " ++ "AND" ++ " ").toList ++
          outline (Phrase.value high)))) := by
    simp [phrase, outline_append]
  rw [hlayout, countIn_between (by decide), countIn_between (by decide),
    countIn_quiet hp s.quiet_phrase, countIn_quiet hp (quiet_value low),
    countIn_quiet hp (quiet_value high)]
  omega

mutual

/-- The keywords in the phrase of a condition are those of its tree. -/
theorem countIn_phrase (hp : PassesKeywords p) : ∀ (c : Condition Path) (nested : Bool),
    countIn p (outline (c.phrase nested)) =
      c.weigh (p "AND").toNat (p "OR").toNat (p "NOT").toNat
        ((p "BETWEEN").toNat + (p "AND").toNat)
  | .all children, nested => by
    obtain ⟨hlength, hsum⟩ := countIn_phraseAll hp children
    rw [phrase, countIn_join (by decide) hp, hlength, hsum, weigh]
  | .any children, nested => by
    obtain ⟨hlength, hsum⟩ := countIn_phraseAll hp children
    rw [phrase, countIn_join (by decide) hp, hlength, hsum, weigh]
  | .not child, nested => by
    have hlayout : outline ((Condition.not child).phrase nested) =
        "NOT".toList ++ ' ' :: outline (child.phrase true) := by
      rw [phrase, outline_append, outline_literal]
      rfl
    rw [hlayout, countIn_split p _ _ (by decide), countIn_keyword (by decide),
      countIn_phrase hp child true, weigh]
  | .between s low high, nested => countIn_bounds hp s low high nested
  | .compare s op value, nested =>
    countIn_quiet hp (quiet_append (quiet_append s.quiet_phrase
      (quiet_literal (by cases op <;> decide))) (quiet_value value))
  | .oneOf s values, nested => by
    refine countIn_quiet hp (quiet_append (quiet_append s.quiet_phrase
      (quiet_literal (by decide))) (quiet_call (by decide) fun q hq => ?_))
    obtain ⟨v, -, rfl⟩ := List.mem_map.1 hq
    exact quiet_value v
  | .beginsWith path value, nested => countIn_quiet hp (quiet_test (by decide) path value)
  | .contains path value, nested => countIn_quiet hp (quiet_test (by decide) path value)
  | .present path, nested =>
    countIn_quiet hp (quiet_call (by decide) (List.forall_mem_singleton.2 path.quiet_phrase))
  | .absent path, nested =>
    countIn_quiet hp (quiet_call (by decide) (List.forall_mem_singleton.2 path.quiet_phrase))
  | .hasKind path kind, nested => countIn_quiet hp (quiet_test (by decide) path _)

/-- The keywords of conditions are their connectives, each with its weight. -/
theorem countIn_phraseAll (hp : PassesKeywords p) :
    ∀ cs : List (Condition Path), (phraseAll cs).length = cs.length ∧
    ((phraseAll cs).map fun q => countIn p (outline q)).sum =
      weighAll (p "AND").toNat (p "OR").toNat (p "NOT").toNat
        ((p "BETWEEN").toNat + (p "AND").toNat) cs
  | [] => ⟨rfl, rfl⟩
  | c :: rest => by
    obtain ⟨hlength, hsum⟩ := countIn_phraseAll hp rest
    have hhead := countIn_phrase hp c true
    rw [phraseAll, List.length_cons, hlength, List.length_cons, List.map_cons, List.sum_cons,
      hhead, hsum, weighAll]
    exact ⟨rfl, rfl⟩

end

end Phrases

/-! ## The complexity of a text -/

/-- A text that says what a condition says has the connectives of its tree, besides one for every
test for bounds, and the word of every such test. -/
theorem words_of_says {b : Bindings} {text : String} {c : Condition Path}
    (h : Says (b.resolve text) ((c.phrase false).map (Sign.map some))) :
    countWords (fun w => w == "AND" || w == "OR" || w == "NOT") text =
        c.connectives + c.boundTests ∧
      countWords (fun w => w == "BETWEEN") text = c.boundTests := by
  have houtline : outline (signs text) = outline (c.phrase false) := by
    rw [← outline_map b.find?, ← outline_map some (c.phrase false)]
    exact h.outline_eq
  have hconnective : PassesKeywords fun w => w == "AND" || w == "OR" || w == "NOT" := by
    intro w hw
    simp only [Bool.or_eq_true, beq_iff_eq] at hw
    rcases hw with (rfl | rfl) | rfl <;> decide
  have hbounds : PassesKeywords fun w => w == "BETWEEN" := by
    intro w hw
    obtain rfl := beq_iff_eq.1 hw
    decide
  rw [countWords_eq_outline hconnective, countWords_eq_outline hbounds, houtline,
    countIn_phrase hconnective, countIn_phrase hbounds]
  exact ⟨weigh_add 1 1 1 0 0 0 0 1 c, rfl⟩

/-- A text that says a condition is as complex as the condition has connectives, and one more. -/
theorem complexity_of_says {b : Bindings} {text : String} {c : Condition Path}
    (h : Says (b.resolve text) ((c.phrase false).map (Sign.map some))) :
    complexity text = 1 + c.connectives := by
  obtain ⟨hconnectives, hbounds⟩ := words_of_says h
  rw [complexity, hconnectives, hbounds, Nat.add_sub_cancel]

end Condition

end ItemStore
