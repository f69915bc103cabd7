import ItemStore.Expression.Bundle
import ItemStore.Proofs.Attribute.Sameness
import ItemStore.Proofs.Expression.Signs
import ItemStore.Proofs.Lists

/-!
# What an expression text says

A text says something only together with bindings.  `Bindings.resolve` reads the signs of a text
and puts what is bound in the place of every placeholder; `Says` compares what two texts say, sign
by sign.  Literal characters and attribute names have to be identical, attribute values have to be
equal as values, and a placeholder without a binding says nothing at all.

* `Says.symm` and `Says.trans`: saying the same is symmetric and transitive, and reflexive where all
  placeholders are bound (`says_bound`).
* `Says.tokensOf`: texts that say the same have placeholders for the same in the same places.
-/

namespace ItemStore

/-! ## Bindings that are the same -/

namespace Binding

/-- A binding is the same as itself. -/
theorem same_refl (x : Binding) : x.same x = true := by
  cases x with
  | name n => simp [same]
  | value v => exact v.same_refl

theorem same_symm {x y : Binding} (h : x.same y = true) : y.same x = true := by
  cases x <;> cases y <;> simp only [same, reduceCtorEq] at h ⊢
  · exact beq_iff_eq.2 (beq_iff_eq.1 h).symm
  · exact AttributeValue.same_symm _ h

theorem same_trans {x y z : Binding} (h : x.same y = true) (h' : y.same z = true) :
    x.same z = true := by
  cases x <;> cases y <;> cases z <;> simp only [same, reduceCtorEq] at h h' ⊢
  · exact beq_iff_eq.2 ((beq_iff_eq.1 h).trans (beq_iff_eq.1 h'))
  · exact AttributeValue.same_trans _ h h'

/-- What is the same as one of two bindings that are the same is the same as the other. -/
theorem same_congr {x y : Binding} (h : x.same y = true) (z : Binding) : z.same x = z.same y := by
  rw [Bool.eq_iff_iff]
  exact ⟨fun hz => same_trans hz h, fun hz => same_trans hz (same_symm h)⟩

/-- Names are the same only if they are identical. -/
theorem eq_of_same_name {n : String} {x : Binding} (h : (Binding.name n).same x = true) :
    x = .name n := by
  cases x with
  | name m => rw [beq_iff_eq.1 h]
  | value v => cases h

end Binding

/-! ## Bindings of texts -/

namespace Bindings

/-- What a text says: its signs, with what is bound in the place of the placeholders. -/
def resolve (b : Bindings) (text : String) : List (Sign (Option Binding)) :=
  (signs text).map (Sign.map b.find?)

/-- Whether every placeholder of texts is bound. -/
def Defines (b : Bindings) (texts : List String) : Prop :=
  ∀ t ∈ Compaction.tokensOfAll texts, b.names.contains t = true ∨ b.values.contains t = true

/-- Whether no placeholder is bound to a name and to a value. -/
def Disjoint (b : Bindings) : Prop :=
  ∀ t, ¬ (b.names.contains t = true ∧ b.values.contains t = true)

/-- A placeholder that is bound to a name stands for the name, whatever value it has besides. -/
theorem find?_eq_name {b : Bindings} {t n : String} :
    b.find? t = some (.name n) ↔ b.names.get? t = some n := by
  rw [find?]
  cases h : b.names.get? t with
  | none => simp
  | some m => simp

/-- A placeholder stands for a value only if it has no name. -/
theorem find?_eq_value {b : Bindings} {t : String} {v : AttributeValue} :
    b.find? t = some (.value v) ↔ b.names.get? t = none ∧ b.values.get? t = some v := by
  rw [find?]
  cases h : b.names.get? t with
  | none => simp
  | some m => simp

/-- A placeholder stands for something exactly if it has a name or a value. -/
theorem find?_isSome {b : Bindings} {t : String} :
    (∃ x, b.find? t = some x) ↔ b.names.contains t = true ∨ b.values.contains t = true := by
  rw [Keyed.contains_iff, Keyed.contains_iff, find?]
  cases b.names.get? t with
  | none => simp
  | some n => simp

theorem Disjoint.get?_values {b : Bindings} (h : b.Disjoint) {t n : String}
    (hn : b.names.get? t = some n) : b.values.get? t = none := by
  cases hv : b.values.get? t with
  | none => rfl
  | some v => exact absurd ⟨Keyed.contains_iff.2 ⟨n, hn⟩, Keyed.contains_iff.2 ⟨v, hv⟩⟩ (h t)

theorem Disjoint.find?_value {b : Bindings} (h : b.Disjoint) {t : String} {v : AttributeValue}
    (hv : b.values.get? t = some v) : b.find? t = some (.value v) := by
  refine find?_eq_value.2 ⟨?_, hv⟩
  cases hn : b.names.get? t with
  | none => rfl
  | some n => rw [h.get?_values hn] at hv; cases hv

/-- Whether placeholders under two bindings stand for the same. -/
def Matches (b b' : Bindings) (t t' : String) : Prop :=
  ∃ x y, b.find? t = some x ∧ b'.find? t' = some y ∧ x.same y = true

/-- Every placeholder of texts that are covered by bindings stands for something. -/
theorem Defines.find? {b : Bindings} {texts : List String} (h : b.Defines texts) {t : String}
    (ht : t ∈ Compaction.tokensOfAll texts) : ∃ x, b.find? t = some x :=
  find?_isSome.2 (h t ht)

end Bindings

/-! ## Saying the same -/

/-- Resolved signs that say the same. -/
inductive Sign.Same : Sign (Option Binding) → Sign (Option Binding) → Prop
  | char (c : Char) : Same (.char c) (.char c)
  | bound {x y : Binding} (h : x.same y = true) :
      Same (.placeholder (some x)) (.placeholder (some y))

theorem Sign.same_char_iff {c d : Char} :
    Sign.Same (.char c) (.char d) ↔ c = d := by
  constructor
  · rintro ⟨⟩
    rfl
  · rintro rfl
    exact .char c

theorem Sign.same_placeholder_iff {x y : Binding} :
    Sign.Same (.placeholder (some x)) (.placeholder (some y)) ↔ x.same y = true := by
  constructor
  · rintro ⟨h⟩
    assumption
  · exact .bound

instance : DecidableRel Sign.Same
  | .char _, .char _ => decidable_of_iff _ Sign.same_char_iff.symm
  | .placeholder (some _), .placeholder (some _) =>
    decidable_of_iff _ Sign.same_placeholder_iff.symm
  | .char _, .placeholder _ => isFalse (by rintro ⟨⟩)
  | .placeholder _, .char _ => isFalse (by rintro ⟨⟩)
  | .placeholder none, .placeholder _ => isFalse (by rintro ⟨⟩)
  | .placeholder (some _), .placeholder none => isFalse (by rintro ⟨⟩)

/-- Resolved signs that say the same from the first to the last. -/
def Says (p q : List (Sign (Option Binding))) : Prop := List.Forall₂ Sign.Same p q

instance : DecidableRel Says := inferInstanceAs (DecidableRel (List.Forall₂ Sign.Same))

theorem Sign.Same.symm {s t : Sign (Option Binding)} (h : s.Same t) : t.Same s := by
  cases h with
  | char c => exact .char c
  | bound h => exact .bound (Binding.same_symm h)

theorem Sign.Same.trans {s t u : Sign (Option Binding)} (h : s.Same t) (h' : t.Same u) :
    s.Same u := by
  cases h with
  | char c => exact h'
  | bound h =>
    cases h' with
    | bound h' => exact .bound (Binding.same_trans h h')

/-- Placeholders that say the same are bound, and to what is the same. -/
theorem Sign.Same.bindings {a a' : Option Binding}
    (h : Sign.Same (.placeholder a) (.placeholder a')) :
    ∃ x y, a = some x ∧ a' = some y ∧ x.same y = true := by
  cases h with
  | bound h => exact ⟨_, _, rfl, rfl, h⟩

/-- No placeholder says what a literal character says. -/
theorem Sign.not_same_char {a : Option Binding} {c : Char} :
    ¬ Sign.Same (.placeholder a) (.char c) := by
  intro h
  cases h

/-- Which of two texts is the first does not matter. -/
theorem Says.symm {p q : List (Sign (Option Binding))} (h : Says p q) : Says q p :=
  h.flip.imp fun _ _ hs => hs.symm

/-- Texts that say the same as a third one say the same as each other. -/
theorem Says.trans {p q r : List (Sign (Option Binding))} (h : Says p q) (h' : Says q r) :
    Says p r :=
  forall₂_trans (fun _ _ _ hs hs' => hs.trans hs') h h'

/-- Signs whose placeholders are bound say what they say. -/
theorem says_bound (p : List (Sign Binding)) :
    Says (p.map (Sign.map some)) (p.map (Sign.map some)) := by
  refine List.forall₂_same.2 fun s hs => ?_
  obtain ⟨s', -, rfl⟩ := List.mem_map.1 hs
  cases s' with
  | char c => exact .char c
  | placeholder x => exact .bound (Binding.same_refl x)

/-- The placeholders of signs that say the same stand for the same, one by one. -/
theorem Says.placeholders {b b' : Bindings} {ss ss' : List (Sign String)}
    (h : Says (ss.map (Sign.map b.find?)) (ss'.map (Sign.map b'.find?))) :
    List.Forall₂ (b.Matches b') (ss.filterMap Sign.placeholder?)
      (ss'.filterMap Sign.placeholder?) := by
  induction ss generalizing ss' with
  | nil =>
    cases ss' with
    | nil => exact .nil
    | cons s' ss' => cases h
  | cons s ss ih =>
    cases ss' with
    | nil => cases h
    | cons s' ss' =>
      obtain ⟨hs, hrest⟩ := List.forall₂_cons.1 h
      have hih := ih hrest
      cases s with
      | char c =>
        cases s' with
        | char c' => exact hih
        | placeholder t' => cases hs
      | placeholder t =>
        cases s' with
        | char c' => exact absurd hs Sign.not_same_char
        | placeholder t' => exact .cons hs.bindings hih

/-- Texts that say the same have placeholders in the same places, and for the same. -/
theorem Says.tokensOf {b b' : Bindings} {t t' : String} (h : Says (b.resolve t) (b'.resolve t')) :
    List.Forall₂ (b.Matches b') (tokensOf t) (tokensOf t') := by
  rw [tokensOf_eq, tokensOf_eq]
  exact h.placeholders

/-- Signs that say the same with the same placeholders are the same. -/
theorem Says.eq_of_placeholders {f g : String → Option Binding} {ss ss' : List (Sign String)}
    (h : Says (ss.map (Sign.map f)) (ss'.map (Sign.map g)))
    (ht : ss.filterMap Sign.placeholder? = ss'.filterMap Sign.placeholder?) : ss = ss' := by
  induction ss generalizing ss' with
  | nil =>
    cases ss' with
    | nil => rfl
    | cons s' ss' => cases h
  | cons s ss ih =>
    cases ss' with
    | nil => cases h
    | cons s' ss' =>
      obtain ⟨hs, hrest⟩ := List.forall₂_cons.1 h
      cases s with
      | char c =>
        cases s' with
        | char c' =>
          cases hs
          rw [ih hrest ht]
        | placeholder t' => cases hs
      | placeholder t =>
        cases s' with
        | char c' => exact absurd hs Sign.not_same_char
        | placeholder t' =>
          obtain ⟨rfl, hrest'⟩ := List.cons_eq_cons.1 ht
          rw [ih hrest hrest']

end ItemStore
