import Mathlib.Data.List.Basic
import ItemStore.Proofs.Expression.Merging
import ItemStore.Proofs.Expression.Words

/-!
# Numbering keeps what texts say

The second step of compaction numbers the bound placeholders of texts, names and values apart, in
the order in which they first occur.

* `lookup_numbering` says which number a placeholder gets, and `numbering_injective` that no two
  get the same.
* `find?_renumber`: a placeholder stands under its number for what it stood for.
* `says_renumber`: renumbered texts say what they said before.
-/

namespace ItemStore

namespace Compaction

/-! ## Numbered placeholders -/

/-- A number makes a placeholder, with its sigil and a letter in front. -/
theorem isToken_numberedName (i : Nat) : IsToken (numberedName i) := by
  refine ⟨'#', 'n' :: (toString i).toList, by simp [numberedName], by decide, by simp, ?_⟩
  intro c hc
  rcases List.mem_cons.1 hc with rfl | hc
  · decide
  · exact isTokenChar_toString i c hc

theorem isToken_numberedValue (i : Nat) : IsToken (numberedValue i) := by
  refine ⟨':', 'v' :: (toString i).toList, by simp [numberedValue], by decide, by simp, ?_⟩
  intro c hc
  rcases List.mem_cons.1 hc with rfl | hc
  · decide
  · exact isTokenChar_toString i c hc

/-- Two names with one number are one placeholder. -/
theorem numberedName_injective {i j : Nat} (h : numberedName i = numberedName j) : i = j := by
  refine toString_injective (String.toList_injective ?_)
  simpa [numberedName] using congrArg String.toList h

theorem numberedValue_injective {i j : Nat} (h : numberedValue i = numberedValue j) : i = j := by
  refine toString_injective (String.toList_injective ?_)
  simpa [numberedValue] using congrArg String.toList h

/-- The sigils keep names and values apart, whatever their numbers are. -/
theorem numberedName_ne_numberedValue (i j : Nat) : numberedName i ≠ numberedValue j := by
  intro h
  have := congrArg (fun s => s.toList.head?) h
  simp [numberedName, numberedValue] at this

/-! ## The table of numbers -/

/-- The placeholders for names in texts, in the order of their first occurrences. -/
def nameTokens (texts : List String) (b : Bindings) : List String :=
  (tokensOfAll texts).eraseDups.filter b.names.contains

/-- The placeholders for values in texts, in the order of their first occurrences. -/
def valueTokens (texts : List String) (b : Bindings) : List String :=
  (tokensOfAll texts).eraseDups.filter fun t => !b.names.contains t && b.values.contains t

/-- Elements with their positions, looked up by element: the first position counts. -/
theorem lookup_zipIdx (l : List String) (g : Nat → String) (k : Nat) (t : String) :
    ((l.zipIdx k).map fun e => (e.1, g e.2)).lookup t =
      if t ∈ l then some (g (k + l.idxOf t)) else none := by
  induction l generalizing k with
  | nil => rfl
  | cons u l ih =>
    by_cases htu : t = u
    · subst htu
      simp
    · have hne : (t == u) = false := by simp [htu]
      have hne' : (u == t) = false := by simp [Ne.symm htu]
      simp [List.lookup_cons, hne, ih, htu, List.idxOf_cons, hne', Nat.add_assoc, Nat.add_comm 1]

section Numbering

variable {texts : List String} {b : Bindings} {t u k : String}

theorem mem_nameTokens :
    t ∈ nameTokens texts b ↔ t ∈ tokensOfAll texts ∧ b.names.contains t = true := by
  rw [nameTokens, List.mem_filter, List.mem_eraseDups]

theorem mem_valueTokens :
    t ∈ valueTokens texts b ↔
      t ∈ tokensOfAll texts ∧ b.names.contains t = false ∧ b.values.contains t = true := by
  rw [valueTokens, List.mem_filter, List.mem_eraseDups, Bool.and_eq_true, Bool.not_eq_true']

/-- A placeholder for a name is not numbered as a value, even if it is bound to one too. -/
theorem not_mem_valueTokens (h : t ∈ nameTokens texts b) : t ∉ valueTokens texts b := by
  intro hv
  have := (mem_nameTokens.1 h).2
  rw [(mem_valueTokens.1 hv).2.1] at this
  cases this

/-- The number of a placeholder is its place among those of its sort. -/
theorem lookup_numbering :
    (numbering texts b).lookup t =
      if t ∈ nameTokens texts b then some (numberedName ((nameTokens texts b).idxOf t))
      else if t ∈ valueTokens texts b then some (numberedValue ((valueTokens texts b).idxOf t))
      else none := by
  have heq : numbering texts b =
      (nameTokens texts b).zipIdx.map (fun e => (e.1, numberedName e.2)) ++
        (valueTokens texts b).zipIdx.map (fun e => (e.1, numberedValue e.2)) := rfl
  rw [heq, List.lookup_append, lookup_zipIdx, lookup_zipIdx, Nat.zero_add, Nat.zero_add]
  split <;> rfl

/-- A name has the number of names that occur before it. -/
theorem lookup_numbering_name (h : t ∈ nameTokens texts b) :
    (numbering texts b).lookup t = some (numberedName ((nameTokens texts b).idxOf t)) := by
  rw [lookup_numbering, if_pos h]

/-- A value has the number of values that occur before it. -/
theorem lookup_numbering_value (h : t ∈ valueTokens texts b) :
    (numbering texts b).lookup t = some (numberedValue ((valueTokens texts b).idxOf t)) := by
  rw [lookup_numbering, if_neg fun hn => not_mem_valueTokens hn h, if_pos h]

/-- A placeholder with a number is one of a name or one of a value. -/
theorem numbering_cases (h : (numbering texts b).lookup t = some k) :
    (t ∈ nameTokens texts b ∧ k = numberedName ((nameTokens texts b).idxOf t)) ∨
      (t ∈ valueTokens texts b ∧ k = numberedValue ((valueTokens texts b).idxOf t)) := by
  rw [lookup_numbering] at h
  split at h
  · rename_i hn
    exact .inl ⟨hn, (Option.some.inj h).symm⟩
  · split at h
    · rename_i hv
      exact .inr ⟨hv, (Option.some.inj h).symm⟩
    · cases h

/-- No number is given to two placeholders. -/
theorem numbering_injective (ht : (numbering texts b).lookup t = some k)
    (hu : (numbering texts b).lookup u = some k) : t = u := by
  rcases numbering_cases ht with ⟨htn, hk⟩ | ⟨htv, hk⟩ <;>
    rcases numbering_cases hu with ⟨hun, hk'⟩ | ⟨huv, hk'⟩ <;> rw [hk] at hk'
  · exact (List.idxOf_inj htn).1 (numberedName_injective hk')
  · exact absurd hk' (numberedName_ne_numberedValue _ _)
  · exact absurd hk'.symm (numberedName_ne_numberedValue _ _)
  · exact (List.idxOf_inj htv).1 (numberedValue_injective hk')

theorem mem_nameTokens_of_find? {n : String} (ht : t ∈ tokensOfAll texts)
    (h : b.find? t = some (.name n)) : t ∈ nameTokens texts b :=
  mem_nameTokens.2 ⟨ht, Keyed.contains_iff.2 ⟨n, Bindings.find?_eq_name.1 h⟩⟩

theorem mem_valueTokens_of_find? {v : AttributeValue} (ht : t ∈ tokensOfAll texts)
    (h : b.find? t = some (.value v)) : t ∈ valueTokens texts b := by
  obtain ⟨hn, hv⟩ := Bindings.find?_eq_value.1 h
  refine mem_valueTokens.2 ⟨ht, ?_, Keyed.contains_iff.2 ⟨v, hv⟩⟩
  rw [Keyed.contains, hn]
  rfl

end Numbering

/-! ## Renumbered bindings -/

/-- Renaming keys apart moves every value under the new name of its key. -/
theorem get?_renameKeys {α : Type} {table : List (String × String)} {c : Keyed α}
    (hinj : ∀ t u k, table.lookup t = some k → table.lookup u = some k → t = u) {k : String}
    {x : α} : (renameKeys table c).get? k = some x ↔
      ∃ t, table.lookup t = some k ∧ c.get? t = some x := by
  have hnodup : ((c.entries.filterMap fun e => (table.lookup e.1).map fun t => (t, e.2)).map
      (·.1)).Nodup := by
    have hkeys : c.entries.Pairwise fun e e' => e.1 ≠ e'.1 := List.pairwise_map.1 c.nodup_keys
    refine List.pairwise_map.2 (hkeys.filterMap _ ?_)
    intro e e' hne p hp p' hp' heq
    obtain ⟨k, hk, rfl⟩ := Option.map_eq_some_iff.1 hp
    obtain ⟨k', hk', rfl⟩ := Option.map_eq_some_iff.1 hp'
    cases heq
    exact hne (hinj _ _ _ hk hk')
  rw [renameKeys, Keyed.get?_ofList hnodup, List.mem_filterMap]
  constructor
  · rintro ⟨e, he, hex⟩
    obtain ⟨k', hk', heq⟩ := Option.map_eq_some_iff.1 hex
    cases heq
    exact ⟨e.1, hk', Keyed.get?_eq_some_iff.2 he⟩
  · rintro ⟨t, ht, hx⟩
    exact ⟨(t, x), Keyed.get?_eq_some_iff.1 hx, by rw [ht]; rfl⟩

/-- If no two keys get one name, what was under a key is under its name. -/
theorem get?_renameKeys_of_lookup {α : Type} {table : List (String × String)} {c : Keyed α}
    (hinj : ∀ t u k, table.lookup t = some k → table.lookup u = some k → t = u) {t k : String}
    (ht : table.lookup t = some k) : (renameKeys table c).get? k = c.get? t := by
  apply Option.ext
  intro x
  rw [get?_renameKeys hinj]
  constructor
  · rintro ⟨u, hu, hx⟩
    rwa [hinj _ _ _ ht hu]
  · intro hx
    exact ⟨t, ht, hx⟩

section Renumber

variable {texts : List String} {b : Bindings} {t k : String} {x : Binding}

/-- Under a number stands the name of the placeholder that has it. -/
theorem get?_names_renumber {n : String} :
    (renumber texts b).2.names.get? k = some n ↔
      ∃ t, (numbering texts b).lookup t = some k ∧ b.names.get? t = some n :=
  get?_renameKeys fun _ _ _ ht hu => numbering_injective ht hu

/-- Under a number stands the value of the placeholder that has it. -/
theorem get?_values_renumber {v : AttributeValue} :
    (renumber texts b).2.values.get? k = some v ↔
      ∃ t, (numbering texts b).lookup t = some k ∧ b.values.get? t = some v :=
  get?_renameKeys fun _ _ _ ht hu => numbering_injective ht hu

theorem get?_names_number (ht : (numbering texts b).lookup t = some k) :
    (renumber texts b).2.names.get? k = b.names.get? t :=
  get?_renameKeys_of_lookup (fun _ _ _ ht hu => numbering_injective ht hu) ht

theorem get?_values_number (ht : (numbering texts b).lookup t = some k) :
    (renumber texts b).2.values.get? k = b.values.get? t :=
  get?_renameKeys_of_lookup (fun _ _ _ ht hu => numbering_injective ht hu) ht

/-- A number stands for what the placeholder stood for. -/
theorem find?_renumber (ht : (numbering texts b).lookup t = some k) :
    (renumber texts b).2.find? k = b.find? t := by
  rw [Bindings.find?, Bindings.find?, get?_names_number ht, get?_values_number ht]

/-- The number of a placeholder. -/
def number (texts : List String) (b : Bindings) (t : String) : String :=
  renameBy (numbering texts b) t

/-- Every bound placeholder of the texts has a number. -/
theorem lookup_number (ht : t ∈ tokensOfAll texts) (hx : b.find? t = some x) :
    (numbering texts b).lookup t = some (number texts b t) := by
  cases x with
  | name n =>
    rw [number, renameBy, lookup_numbering_name (mem_nameTokens_of_find? ht hx)]
    rfl
  | value v =>
    rw [number, renameBy, lookup_numbering_value (mem_valueTokens_of_find? ht hx)]
    rfl

/-- What takes the place of a placeholder of the texts is a placeholder again. -/
theorem isToken_number (h : b.Defines texts) (ht : t ∈ tokensOfAll texts) :
    IsToken (number texts b t) := by
  obtain ⟨x, hx⟩ := h.find? ht
  rcases numbering_cases (lookup_number ht hx) with ⟨-, hk⟩ | ⟨-, hk⟩ <;> rw [hk]
  · exact isToken_numberedName _
  · exact isToken_numberedValue _

theorem renumber_texts (texts : List String) (b : Bindings) :
    (renumber texts b).1 = texts.map (renameTokens (number texts b)) := rfl

/-- Renumbering replaces placeholders one by one and adds none. -/
theorem tokensOfAll_renumber (h : b.Defines texts) :
    tokensOfAll (renumber texts b).1 = (tokensOfAll texts).map (number texts b) :=
  tokensOfAll_rename fun _ ht => isToken_number h ht

/-- After renumbering every placeholder of the texts is bound, if every one was. -/
theorem defines_renumber (h : b.Defines texts) :
    (renumber texts b).2.Defines (renumber texts b).1 := by
  intro k hk
  rw [tokensOfAll_renumber h] at hk
  obtain ⟨t, ht, rfl⟩ := List.mem_map.1 hk
  obtain ⟨x, hx⟩ := h.find? ht
  exact Bindings.find?_isSome.1 ⟨x, by rw [find?_renumber (lookup_number ht hx), hx]⟩

/-- Renumbered texts say what they said before. -/
theorem says_renumber (h : b.Defines texts) :
    List.Forall₂ (fun t t' => Says ((renumber texts b).2.resolve t) (b.resolve t'))
      (renumber texts b).1 texts := by
  rw [renumber_texts, List.forall₂_map_left_iff]
  refine List.forall₂_same.2 fun text htext => says_renameTokens fun t ht => ?_
  have htm := mem_tokensOfAll htext ht
  obtain ⟨x, hx⟩ := h.find? htm
  refine ⟨isToken_number h htm, x, x, ?_, hx, Binding.same_refl x⟩
  rw [find?_renumber (lookup_number htm hx), hx]

end Renumber

end Compaction

end ItemStore
