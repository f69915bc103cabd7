import ItemStore.Proofs.Expression.Numbering

/-!
# Compaction keeps what texts say

Merging and numbering each keep what texts say, and so compaction does.

* `says_compact`: every compacted text says what the text in its place said.
* `defines_compact` and `disjoint_compact`: compacted texts have all of their placeholders bound,
  and no placeholder is bound to a name and to a value.
* `compact_preserves_meaning` has the three together, with the number of texts.
-/

namespace ItemStore

/-! ## Bindings of names and of values kept apart -/

namespace Bindings

/-- Names and values are apart exactly if no key of a name has a value. -/
theorem disjoint_iff {b : Bindings} :
    b.Disjoint ↔ ∀ t ∈ b.names.keys, b.values.contains t = false := by
  constructor
  · intro h t ht
    rw [Bool.eq_false_iff]
    exact fun hv => h t ⟨Keyed.mem_keys.1 ht, hv⟩
  · rintro h t ⟨hn, hv⟩
    rw [h t (Keyed.mem_keys.2 hn)] at hv
    cases hv

instance (b : Bindings) : Decidable b.Disjoint := decidable_of_iff _ disjoint_iff.symm

instance (b : Bindings) (texts : List String) : Decidable (b.Defines texts) :=
  inferInstanceAs (Decidable (∀ t ∈ Compaction.tokensOfAll texts,
    b.names.contains t = true ∨ b.values.contains t = true))

end Bindings

namespace Compaction

variable {texts : List String} {b : Bindings}

/-- Merging binds no placeholder to anything else, so names and values stay apart. -/
theorem disjoint_merge (h : b.Disjoint) : (merge texts b).2.Disjoint := by
  rintro t ⟨hn, hv⟩
  obtain ⟨n, hn⟩ := Keyed.contains_iff.1 hn
  obtain ⟨v, hv⟩ := Keyed.contains_iff.1 hv
  exact h t ⟨Keyed.contains_iff.2 ⟨n, (get?_names_merge.1 hn).1⟩,
    Keyed.contains_iff.2 ⟨v, (get?_values_merge.1 hv).1⟩⟩

/-- Numbers keep names and values apart by their sigils. -/
theorem disjoint_renumber (h : b.Disjoint) : (renumber texts b).2.Disjoint := by
  rintro k ⟨hn, hv⟩
  obtain ⟨n, hn⟩ := Keyed.contains_iff.1 hn
  obtain ⟨v, hv⟩ := Keyed.contains_iff.1 hv
  obtain ⟨t, ht, hn⟩ := get?_names_renumber.1 hn
  obtain ⟨u, hu, hv⟩ := get?_values_renumber.1 hv
  -- a number belongs to one placeholder, which would be bound to a name and to a value
  have htu : t = u := numbering_injective ht hu
  subst htu
  exact h t ⟨Keyed.contains_iff.2 ⟨n, hn⟩, Keyed.contains_iff.2 ⟨v, hv⟩⟩

/-! ## Both steps -/

theorem compact_eq (texts : List String) (b : Bindings) :
    compact texts b = renumber (merge texts b).1 (merge texts b).2 := rfl

/-- Compaction gives one text for each text. -/
theorem length_compact (texts : List String) (b : Bindings) :
    (compact texts b).1.length = texts.length := by
  rw [compact_eq, renumber_texts, List.length_map, merge_texts, List.length_map]

/-- Names and values stay apart in both steps. -/
theorem disjoint_compact (h : b.Disjoint) : (compact texts b).2.Disjoint :=
  disjoint_renumber (disjoint_merge h)

/-- Every placeholder that is left is bound. -/
theorem defines_compact (h : b.Defines texts) :
    (compact texts b).2.Defines (compact texts b).1 :=
  defines_renumber (defines_merge h)

/-- Every compacted text says what it said before. -/
theorem says_compact (h : b.Defines texts) :
    List.Forall₂ (fun t t' => Says ((compact texts b).2.resolve t) (b.resolve t'))
      (compact texts b).1 texts :=
  forall₂_trans (fun _ _ _ hs hs' => hs.trans hs') (says_renumber (defines_merge h)) (says_merge h)

/-- Compaction keeps every text in its place and what it says: character by character, name by name
and, up to equality of values, value by value. -/
theorem compact_preserves_meaning (hdisjoint : b.Disjoint) (hdefines : b.Defines texts) :
    (compact texts b).1.length = texts.length ∧
      (compact texts b).2.Disjoint ∧
      (compact texts b).2.Defines (compact texts b).1 ∧
      List.Forall₂ (fun t t' => Says ((compact texts b).2.resolve t) (b.resolve t'))
        (compact texts b).1 texts :=
  ⟨length_compact texts b, disjoint_compact hdisjoint, defines_compact hdefines,
    says_compact hdefines⟩

/-- Bindings in which placeholders look like numbered ones, in another order, and in which several
stand for the same. -/
def clashing : Bindings :=
  ⟨.ofList [("#n1", "alpha"), ("#n0", "beta"), ("#a", "alpha"), ("#n10", "beta")],
    .ofList [(":v1", .stringSet ["x", "y"]), (":v0", .stringSet ["y", "x"]), (":v10", .null true)]⟩

/-- Texts in which placeholders stand side by side, next to sigils that begin none. -/
def clashingTexts : List String := ["#n1#a <> :v1:v0", "# :: #n10=#n1 ü #n0 IN (:v10,:v1)"]

theorem compact_preserves_clashing :
    clashing.Disjoint ∧ clashing.Defines clashingTexts ∧
      (compact clashingTexts clashing).1.length = 2 ∧
      List.Forall₂ (fun t t' => Says ((compact clashingTexts clashing).2.resolve t)
        (clashing.resolve t')) (compact clashingTexts clashing).1 clashingTexts := by
  have hdisjoint : clashing.Disjoint := by decide +kernel
  have hdefines : clashing.Defines clashingTexts := by decide +kernel
  obtain ⟨hlength, -, -, hsaid⟩ := compact_preserves_meaning hdisjoint hdefines
  exact ⟨hdisjoint, hdefines, hlength, hsaid⟩

end Compaction

end ItemStore
